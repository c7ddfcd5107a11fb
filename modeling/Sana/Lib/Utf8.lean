import Mathlib.Data.List.Lex
import Mathlib.Data.List.Sort
import Mathlib.Data.String.Basic

/-!
# The order of UTF-8 texts

Texts compared by their bytes come in the order of their code points. This holds of every
code whose words differ, at the first place where they do, as the encoded symbols do: no word
is then the beginning of another.
-/

namespace Sana.Lib.Utf8

variable {α β : Type} [LinearOrder α] [LinearOrder β]

/-- Two words part at some place, and the first of them is the smaller there. -/
def Parts (a b : List β) : Prop := ∃ p x s y t, a = p ++ x :: s ∧ b = p ++ y :: t ∧ x < y

theorem Parts.cons {a b : List β} (h : Parts a b) (z : β) : Parts (z :: a) (z :: b) := by
  obtain ⟨p, x, s, y, t, rfl, rfl, hxy⟩ := h
  exact ⟨z :: p, x, s, y, t, rfl, rfl, hxy⟩

theorem Parts.head {x y : β} (h : x < y) (s t : List β) : Parts (x :: s) (y :: t) :=
  ⟨[], x, s, y, t, rfl, rfl, h⟩

/-- What follows two words that part does not matter. -/
theorem Parts.append_lt {a b : List β} (h : Parts a b) (s t : List β) : a ++ s < b ++ t := by
  obtain ⟨p, x, u, y, v, rfl, rfl, hxy⟩ := h
  rw [List.append_assoc, List.append_assoc]
  induction p with
  | nil => exact List.Lex.rel hxy
  | cons z p ih => exact List.Lex.cons ih

/-- **A code whose words part as their symbols do keeps the order of texts.** -/
theorem flatMap_lt {f : α → List β} (hparts : ∀ a b, a < b → Parts (f a) (f b))
    (hne : ∀ a, f a ≠ []) {l l' : List α} (h : l < l') : l.flatMap f < l'.flatMap f := by
  induction h with
  | nil =>
      rename_i b l
      rw [List.flatMap_nil, List.flatMap_cons]
      obtain ⟨y, t, hy⟩ := List.exists_cons_of_ne_nil (hne b)
      rw [hy]
      exact List.Lex.nil
  | cons h ih =>
      rename_i a l l'
      rw [List.flatMap_cons, List.flatMap_cons]
      induction f a with
      | nil => exact ih
      | cons z p ihp => exact List.Lex.cons ihp
  | rel hab =>
      rw [List.flatMap_cons, List.flatMap_cons]
      exact (hparts _ _ hab).append_lt _ _

/-! ## UTF-8 -/

/-- The numbers of bytes. -/
def codes (bytes : List UInt8) : List Nat := bytes.map UInt8.toNat

theorem codes_cons {n : Nat} (h : n < 256) (bytes : List UInt8) :
    codes (UInt8.ofNat n :: bytes) = n :: codes bytes := by
  rw [codes, List.map_cons, UInt8.toNat_ofNat_of_lt' h]
  rfl

/-- Words part if their first bytes do, or if these are equal and the rest of them parts. -/
theorem parts_cons {m n : Nat} {s t : List UInt8} (hmn : m ≤ n) (hn : n < 256)
    (h : m = n → Parts (codes s) (codes t)) :
    Parts (codes (UInt8.ofNat m :: s)) (codes (UInt8.ofNat n :: t)) := by
  rw [codes_cons (lt_of_le_of_lt hmn hn), codes_cons hn]
  by_cases he : m = n
  · subst he
    exact (h rfl).cons _
  · exact Parts.head (lt_of_le_of_ne hmn he) _ _

theorem parts_head {m n : Nat} {s t : List UInt8} (hmn : m < n) (hn : n < 256) :
    Parts (codes (UInt8.ofNat m :: s)) (codes (UInt8.ofNat n :: t)) :=
  parts_cons (le_of_lt hmn) hn fun h => absurd h (Nat.ne_of_lt hmn)

/-- The words of two code points part as the code points do. -/
theorem parts_utf8EncodeChar {c d : Char} (h : c < d) :
    Parts (codes (String.utf8EncodeChar c)) (codes (String.utf8EncodeChar d)) := by
  have hlt : c.val.toNat < d.val.toNat := h
  have hd : d.val.toNat < 0x110000 := by
    have := d.valid
    unfold UInt32.isValidChar Nat.isValidChar at this
    omega
  unfold String.utf8EncodeChar
  generalize c.val.toNat = m at hlt
  generalize d.val.toNat = n at hlt hd
  dsimp only
  by_cases h1 : n ≤ 0x7f
  · rw [if_pos (by omega), if_pos h1]
    exact parts_head hlt (by omega)
  rw [if_neg h1]
  by_cases h2 : n ≤ 0x7ff
  · rw [if_pos h2]
    split
    · exact parts_head (by omega) (by omega)
    · rw [if_pos (by omega)]
      refine parts_cons (by omega) (by omega) fun he => ?_
      exact parts_head (by omega) (by omega)
  rw [if_neg h2]
  by_cases h3 : n ≤ 0xffff
  · rw [if_pos h3]
    split
    · exact parts_head (by omega) (by omega)
    split
    · exact parts_head (by omega) (by omega)
    · rw [if_pos (by omega)]
      refine parts_cons (by omega) (by omega) fun he => ?_
      refine parts_cons (by omega) (by omega) fun he' => ?_
      exact parts_head (by omega) (by omega)
  rw [if_neg h3]
  split
  · exact parts_head (by omega) (by omega)
  split
  · exact parts_head (by omega) (by omega)
  split
  · exact parts_head (by omega) (by omega)
  · refine parts_cons (by omega) (by omega) fun he => ?_
    refine parts_cons (by omega) (by omega) fun he' => ?_
    refine parts_cons (by omega) (by omega) fun he'' => ?_
    exact parts_head (by omega) (by omega)

theorem codes_utf8EncodeChar_ne_nil (c : Char) : codes (String.utf8EncodeChar c) ≠ [] := by
  unfold String.utf8EncodeChar codes
  dsimp only
  split_ifs <;> exact List.cons_ne_nil _ _

/-- A text is read back from its bytes. -/
theorem fromUTF8?_toUTF8 (s : String) : String.fromUTF8? s.toUTF8 = some s := by
  have hvalid : s.toUTF8.IsValidUTF8 := s.isValidUTF8
  unfold String.fromUTF8?
  rw [dif_pos hvalid]
  rfl

/-- The numbers of the bytes of a text. -/
def order (bytes : ByteArray) : List Nat := codes bytes.data.toList

theorem order_toUTF8 (cs : List Char) :
    order (String.ofList cs).toUTF8 = cs.flatMap fun c => codes (String.utf8EncodeChar c) := by
  have hbytes : (String.ofList cs).toUTF8 = cs.utf8Encode := String.toByteArray_ofList
  rw [order, hbytes, List.utf8Encode, List.toList_data_toByteArray, codes, List.map_flatMap]
  rfl

/-- **Texts come in the order of their bytes.** -/
theorem order_le_iff (cs ds : List Char) :
    order (String.ofList cs).toUTF8 ≤ order (String.ofList ds).toUTF8 ↔ cs ≤ ds := by
  rw [order_toUTF8, order_toUTF8]
  have hlt : ∀ {x y : List Char}, x < y →
      (x.flatMap fun c => codes (String.utf8EncodeChar c)) <
        y.flatMap fun c => codes (String.utf8EncodeChar c) := fun h =>
    flatMap_lt (fun _ _ => parts_utf8EncodeChar) codes_utf8EncodeChar_ne_nil h
  constructor
  · intro h
    by_contra hne
    exact absurd (hlt (not_le.mp hne)) (not_lt.mpr h)
  · intro h
    rcases lt_or_eq_of_le h with h | rfl
    · exact le_of_lt (hlt h)
    · exact le_refl _

end Sana.Lib.Utf8
