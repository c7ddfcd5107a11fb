import Sana.Lib.Utf8
import Sana.Telemetry.PrivacyGuard

/-!
# What an accepted report may still hold

The guard sees the names and strings that decoding keeps, and of a name only whether it is
forbidden. So what it accepts is fit to be published if no name looks like a credential and nothing
unfit stands in a member that a later one of the same name hides.
-/

namespace Sana.Telemetry

open Lib PyJson

variable {δ : Type} {b : GuardBuiltins δ}

/-! ## What the guard has looked at -/

mutual

theorem all_of_validatePayload {path : PyStr} {v : PyJson δ}
    (h : validatePayload b path v = .ok ()) :
    v.All (fun key => ¬b.Forbidden key) (fun s => ¬b.Secret s) := by
  cases v with
  | arr items => exact all_of_validateItems h
  | obj members => exact all_of_validateMembers h
  | str s =>
    rw [validatePayload] at h
    split at h
    · exact nomatch h
    · assumption
  | _ => trivial

theorem all_of_validateItems {path : PyStr} {index : Nat} {vs : List (PyJson δ)}
    (h : validateItems b path index vs = .ok ()) :
    AllItems (fun key => ¬b.Forbidden key) (fun s => ¬b.Secret s) vs := by
  cases vs with
  | nil => trivial
  | cons v vs =>
    rw [validateItems] at h
    obtain ⟨⟨⟩, hv, hvs⟩ := bind_ok_iff.mp h
    exact ⟨all_of_validatePayload hv, all_of_validateItems hvs⟩

theorem all_of_validateMembers {path : PyStr} {ms : List (PyStr × PyJson δ)}
    (h : validateMembers b path ms = .ok ()) :
    AllMembers (fun key => ¬b.Forbidden key) (fun s => ¬b.Secret s) ms := by
  match ms with
  | [] => trivial
  | (k, v) :: ms =>
    rw [validateMembers] at h
    split at h
    · exact nomatch h
    case isFalse hkey =>
      obtain ⟨⟨⟩, hv, hms⟩ := bind_ok_iff.mp h
      exact ⟨⟨hkey, all_of_validatePayload hv⟩, all_of_validateMembers hms⟩

end

/-! ## What it has not looked at -/

/-- **An accepted report is fit to be published exactly where** none of its names is a credential
and nothing unfit is hidden by a later member of the same name. -/
theorem accepted_report_iff {payload : ByteArray} (h : validateJsonBytes b payload = .ok ()) :
    ∃ tree, reportTree b payload = some tree ∧
      (tree.All (fun key => ¬b.Forbidden key ∧ ¬b.Secret key) (fun s => ¬b.Secret s) ↔
        tree.All (fun key => ¬b.Secret key) (fun _ => True) ∧
          tree.Shadowed (All (fun key => ¬b.Forbidden key) fun s => ¬b.Secret s)) := by
  rw [validateJsonBytes] at h
  split at h
  case h_2 => exact nomatch h
  case h_1 decoded hdecoded =>
    obtain ⟨text, htext, hloads⟩ := Option.bind_eq_some_iff.mp hdecoded
    obtain ⟨tree, htree, rfl⟩ := Option.map_eq_some_iff.mp hloads
    have hkept := all_of_validatePayload h
    refine ⟨tree, Option.bind_eq_some_iff.mpr ⟨text, htext, htree⟩, ?_⟩
    have hsplit : tree.All (fun key => ¬b.Forbidden key ∧ ¬b.Secret key)
        (fun s => ¬b.Secret s ∧ True) ↔ tree.All (fun key => ¬b.Forbidden key)
          (fun s => ¬b.Secret s) ∧ tree.All (fun key => ¬b.Secret key) fun _ => True := all_and tree
    simp only [and_true] at hsplit
    rw [hsplit]
    exact ⟨fun h => ⟨h.2, shadowed_of_all h.1⟩, fun h => ⟨all_of_collapse h.2 hkept, h.1⟩⟩

/-- A code point of ASCII in lower case. -/
def lowered : CodePoint → CodePoint
  | .scalar c => .scalar c.toLower
  | .lone n => .lone n

/-- The second alternative of `_REPORT_SECRET_VALUE` is found in a string in lower case; `before` is
what stands in front of it. -/
def searchApiKey (before : Option CodePoint) : PyStr → Bool
  | [] => false
  | c :: s =>
      (before.all fun p => ¬asciiWord p) && ["sk", "ds", "api"].any (fun word =>
          (PyStr.ofString word).isPrefixOf (c :: s) && keyFollows ((c :: s).drop word.length))
        || searchApiKey (some c) s
where
  asciiWord : CodePoint → Bool
    | .scalar c => c.isAlphanum || c = '_'
    | .lone _ => false
  keyFollows (rest : PyStr) : Bool :=
    [CodePoint.scalar '_', .scalar '-'].any (rest.head? = some ·) &&
      12 ≤ (rest.tail.takeWhile fun
        | .scalar c => c.isAlphanum || c ∈ ['.', '_', '-']
        | .lone _ => false).length

/-- Names of ASCII letters, and the search for the keys of services. -/
def sampleGuard : GuardBuiltins Unit where
  floats := ⟨fun _ => (), fun _ => ()⟩
  isFinite _ := true
  casefold := List.map lowered
  search _ s := searchApiKey none (s.map lowered)

theorem reportTree_toUTF8 (text : String) :
    reportTree b text.toUTF8 = syntaxTree b.floats text.toList := by
  rw [reportTree, Utf8.fromUTF8?_toUTF8, Option.bind_some]

/-- A text is accepted if what it decodes to is. -/
theorem validateJsonBytes_toUTF8 {text : String}
    (h : (loads b.floats text.toList).any fun decoded =>
      (validatePayload b (PyStr.ofString "$") decoded).isOk) :
    validateJsonBytes b text.toUTF8 = .ok () := by
  obtain ⟨decoded, hloads, hok⟩ := (Option.any_eq_true _ _).mp h
  rw [validateJsonBytes, Utf8.fromUTF8?_toUTF8, Option.bind_some, hloads]
  cases hvalid : validatePayload b (PyStr.ofString "$") decoded with
  | ok u => exact hvalid
  | error e => simp [hvalid, Except.isOk, Except.toBool] at hok

/-- A credential as a name, and one in a member that comes twice. -/
def leakingReport : String :=
  "\x7b\"sk-abcdefghijkl\":1,\"note\":\"sk-mnopqrstuvwx\",\"note\":2\x7d"

/-- It is accepted, and neither its names nor its strings are fit. -/
theorem leaking_report_accepted :
    validateJsonBytes sampleGuard leakingReport.toUTF8 = .ok () ∧
      ∃ tree, reportTree sampleGuard leakingReport.toUTF8 = some tree ∧
        ¬ tree.All (fun key => ¬sampleGuard.Secret key) (fun _ => True) ∧
        ¬ tree.All (fun _ => True) fun s => ¬sampleGuard.Secret s := by
  refine ⟨validateJsonBytes_toUTF8 (by decide +kernel), ?_⟩
  have htree : (syntaxTree sampleGuard.floats leakingReport.toList).any fun tree => decide
      (¬ tree.All (fun key => ¬sampleGuard.Secret key) (fun _ => True) ∧
        ¬ tree.All (fun _ => True) fun s => ¬sampleGuard.Secret s) := by
    decide +kernel
  obtain ⟨tree, htree, hunfit⟩ := (Option.any_eq_true _ _).mp htree
  exact ⟨tree, (reportTree_toUTF8 _).trans htree, of_decide_eq_true hunfit⟩

/-- Runs with their phases, the first of them noted twice. -/
def phasesReport : String :=
  "\x7b\"runs\":[\x7b\"phase\":\"fetch\",\"note\":\"risk-free\",\"note\":\"two hosts\"\x7d,"
    ++ "\x7b\"phase\":\"Answer\",\"usage\":\x7b\"calls\":2\x7d\x7d]\x7d"

/-- A report that is fit, with a member hidden by a later one. -/
theorem plain_report_fit :
    ∃ tree, reportTree sampleGuard phasesReport.toUTF8 = some tree ∧
      tree.All (fun key => ¬sampleGuard.Forbidden key ∧ ¬sampleGuard.Secret key)
        (fun s => ¬sampleGuard.Secret s) ∧
      (tree.All (fun key => ¬sampleGuard.Forbidden key ∧ ¬sampleGuard.Secret key)
          (fun s => ¬sampleGuard.Secret s) ↔
        tree.All (fun key => ¬sampleGuard.Secret key) (fun _ => True) ∧
          tree.Shadowed (All (fun key => ¬sampleGuard.Forbidden key)
            fun s => ¬sampleGuard.Secret s)) := by
  have haccepted : validateJsonBytes sampleGuard phasesReport.toUTF8 = .ok () :=
    validateJsonBytes_toUTF8 (by decide +kernel)
  have hfit : (syntaxTree sampleGuard.floats phasesReport.toList).any fun tree => decide
      (tree.All (fun key => ¬sampleGuard.Forbidden key ∧ ¬sampleGuard.Secret key)
        fun s => ¬sampleGuard.Secret s) := by
    decide +kernel
  obtain ⟨tree, htree, hiff⟩ := accepted_report_iff haccepted
  rw [← reportTree_toUTF8, htree] at hfit
  exact ⟨tree, htree, of_decide_eq_true hfit, hiff⟩

end Sana.Telemetry
