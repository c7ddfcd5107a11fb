import Sana.Storage.LocalArtifacts

/-!
# The store of campaign reports

`LocalCampaignReportStore` keeps release reports in files named by their digests, under the tenant
and the campaign. What its two methods do to the files is in `Storage.Publication`; here is what they
do before and after.
-/

namespace Sana.Storage.LocalCampaignReportStore

open Sana.Lib

variable {δ : Type} (b : StoreBuiltins δ)

/-- `_invalid`. -/
def invalid (message : String) : Exn :=
  .typed ⟨.content, "invalid_campaign_artifact_uri", message, false⟩

def scopeMismatch : Exn := .typed ⟨.permanent, "campaign_artifact_scope_mismatch",
  "Campaign artifact does not belong to the active scope", false⟩

def corrupted (message : String) : Exn :=
  .typed ⟨.content, "campaign_artifact_corrupted", message, false⟩

def notFound : Exn := .typed ⟨.content, "campaign_artifact_not_found",
  "Campaign artifact payload is unavailable", true⟩

/-- `_MEDIA_TYPES`. -/
def mediaTypes : List String := ["application/json", "text/markdown"]

/-- `_SHA256.fullmatch(digest)`. -/
def isDigest (digest : String) : Bool :=
  decide (digest.length = 64) && digest.toList.all fun c => c.isDigit || ('a' ≤ c && c ≤ 'f')

/-- `_path`, below the root. -/
def path (tenantId campaignId : Uuid) (digest : String) : Except Exn (List String) :=
  if isDigest digest then .ok (LocalArtifactStore.path tenantId campaignId digest)
  else .error (invalid "Campaign artifact digest is invalid")

/-- `_uri`. -/
def uri (tenantId campaignId : Uuid) (digest : String) : String :=
  "campaign-artifact://" ++ tenantId.str ++ "/" ++ campaignId.str ++ "/" ++ digest

/-- `_parse`. Parameters of a path are split off only for other schemes, which are refused. -/
def parse (uri : String) : Except Exn (Uuid × Uuid × String) :=
  match Url.urlsplit b.checks uri.toList with
  | none => .error (.valueError "Invalid URL")
  | some parsed =>
    match (parsed.path.splitOn '/').filter (· ≠ []) with
    | [campaign, digest] =>
      if parsed.scheme ≠ "campaign-artifact".toList ∨ parsed.query ≠ [] ∨ parsed.fragment ≠ [] then
        .error (invalid "Campaign artifact URI is invalid")
      else
        match Uuid.parse (String.ofList parsed.netloc), Uuid.parse (String.ofList campaign) with
        | some tenantId, some campaignId =>
          if isDigest (String.ofList digest) then .ok (tenantId, campaignId, String.ofList digest)
          else .error (invalid "Campaign artifact digest is invalid")
        | _, _ => .error (invalid "Campaign artifact identity is invalid")
    | _ => .error (invalid "Campaign artifact URI is invalid")

end Sana.Storage.LocalCampaignReportStore
