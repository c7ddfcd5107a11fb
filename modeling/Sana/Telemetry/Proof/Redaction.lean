import Sana.Telemetry.Redaction

/-!
# Redaction does not interfere

Two payloads are alike if they differ only in values under names that are not in the allowlists and
in strings that are no tokens. What is reported of them is the same: a name in the allowlists is
short, so cutting a name neither makes it one of them nor makes it another.
-/

namespace Sana.Telemetry

open Lib

variable {φ : Type} {isWord : Char → Bool}

variable (isWord) in
mutual

/-- Payloads that differ only in what is to be redacted. -/
inductive Alike : Payload φ → Payload φ → Prop
  | same (v : Payload φ) : Alike v v
  | str {s t : PyStr} (hs : isSafe isWord s = false) (ht : isSafe isWord t = false) :
      Alike (.str s) (.str t)
  | list {vs ws : List (Payload φ)} (h : AlikeItems vs ws) : Alike (.list vs) (.list ws)
  | mapping {ms ns : List (PyStr × Payload φ)} (h : AlikeMembers ms ns) :
      Alike (.mapping ms) (.mapping ns)

inductive AlikeItems : List (Payload φ) → List (Payload φ) → Prop
  | nil : AlikeItems [] []
  | cons {v w : Payload φ} {vs ws : List (Payload φ)} (h : Alike v w) (hs : AlikeItems vs ws) :
      AlikeItems (v :: vs) (w :: ws)

inductive AlikeMembers : List (PyStr × Payload φ) → List (PyStr × Payload φ) → Prop
  | nil : AlikeMembers [] []
  | kept {v w : Payload φ} {ms ns : List (PyStr × Payload φ)} (key : PyStr) (h : Alike v w)
      (hs : AlikeMembers ms ns) : AlikeMembers ((key, v) :: ms) ((key, w) :: ns)
  | other {ms ns : List (PyStr × Payload φ)} {key : PyStr} (hkey : key ∉ allowlist)
      (v w : Payload φ) (hs : AlikeMembers ms ns) : AlikeMembers ((key, v) :: ms) ((key, w) :: ns)

end

/-- The names of the allowlists are short. -/
theorem length_allowlist : ∀ key ∈ allowlist, key.length < 128 := by decide

/-- **Cutting a name keeps it out of the allowlists**, and in them. -/
theorem diagnosticKey_mem_iff {key : PyStr} : diagnosticKey key ∈ allowlist ↔ key ∈ allowlist := by
  rcases Nat.le_total key.length 128 with hshort | hlong
  · rw [diagnosticKey, List.take_of_length_le hshort]
  · constructor
    · intro h
      have hlength := length_allowlist _ h
      rw [diagnosticKey, List.length_take, Nat.min_eq_left hlong] at hlength
      omega
    · intro h
      have hlength := length_allowlist _ h
      omega

mutual

theorem diagnosticPayload_alike {v w : Payload φ} (h : Alike isWord v w) (depth : Nat) :
    diagnosticPayload isWord depth v = diagnosticPayload isWord depth w := by
  cases h with
  | same => rfl
  | str hs ht =>
    rw [diagnosticPayload, diagnosticPayload]
    simp only [hs, ht, Bool.false_eq_true, if_false]
  | list h =>
    rw [diagnosticPayload, diagnosticPayload]
    simp only [diagnosticItems_alike h depth]
  | mapping h =>
    rw [diagnosticPayload, diagnosticPayload]
    simp only [diagnosticMembers_alike h depth []]

theorem diagnosticItems_alike {vs ws : List (Payload φ)} (h : AlikeItems isWord vs ws)
    (depth : Nat) : diagnosticItems isWord depth vs = diagnosticItems isWord depth ws := by
  cases h with
  | nil => rfl
  | cons h hs =>
    rw [diagnosticItems, diagnosticItems, diagnosticPayload_alike h, diagnosticItems_alike hs]

theorem diagnosticMembers_alike {ms ns : List (PyStr × Payload φ)}
    (h : AlikeMembers isWord ms ns) (depth : Nat) (result : List (PyStr × Payload φ)) :
    diagnosticMembers isWord depth result ms = diagnosticMembers isWord depth result ns := by
  cases h with
  | nil => rfl
  | kept key h hs =>
    rw [diagnosticMembers, diagnosticMembers, diagnosticPayload_alike h,
      diagnosticMembers_alike hs]
  | other hkey v w hs =>
    have hcut := mt diagnosticKey_mem_iff.mp hkey
    rw [diagnosticMembers, diagnosticMembers]
    simp only [if_neg hcut]
    exact diagnosticMembers_alike hs depth _

end

/-- **Payloads that differ only in what is to be redacted are reported alike.** -/
theorem diagnostic_noninterference {v w : Payload φ} (h : Alike isWord v w) :
    diagnosticPayload isWord 0 v = diagnosticPayload isWord 0 w := diagnosticPayload_alike h 0

/-- A status, notes of different shape, and two messages where a code is expected. -/
theorem diagnostic_noninterference_notes :
    diagnosticPayload (φ := Rat) Char.isAlphanum 0 (.mapping
        [(.ofString "status", .str (.ofString "ok")), (.ofString "notes", .list [.int 1]),
          (.ofString "error_code", .list [.str (.ofString "no route")])]) =
      diagnosticPayload Char.isAlphanum 0 (.mapping
        [(.ofString "status", .str (.ofString "ok")), (.ofString "notes", .float 2),
          (.ofString "error_code", .list [.str (.ofString "")])]) :=
  diagnostic_noninterference (.mapping (.kept _ (.same _) (.other (by decide) _ _
    (.kept _ (.list (.cons (.str (by decide) (by decide)) .nil)) .nil))))

end Sana.Telemetry
