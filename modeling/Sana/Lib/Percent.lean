import Sana.Lib.Utf8

/-!
# Percent-encoding

`quote_plus` and `unquote` of texts, over the bytes of UTF-8. What is quoted is unquoted again. The
other way round bytes that are no UTF-8 are replaced by something else, and that is all that gets
lost (`utf8_unquote_iff`).
-/

namespace Sana.Lib.Percent

/-- `text.encode("utf-8")`. -/
def utf8 (cs : List Char) : List UInt8 := cs.flatMap String.utf8EncodeChar

/-- A digit of `%XX`. -/
def hexDigit (n : Nat) : Char := Char.ofNat (if n < 10 then 48 + n else 55 + n)

/-- The value of a digit of `%XX`, which may be of either case. -/
def hexValue (c : Char) : Option Nat :=
  let n := c.toNat
  if 48 ≤ n ∧ n ≤ 57 then some (n - 48)
  else if 65 ≤ n ∧ n ≤ 70 then some (n - 55)
  else if 97 ≤ n ∧ n ≤ 102 then some (n - 87)
  else none

/-- `_ALWAYS_SAFE`. -/
def isSafe (n : Nat) : Bool :=
  (48 ≤ n && n ≤ 57) || (65 ≤ n && n ≤ 90) || (97 ≤ n && n ≤ 122) ||
    n = 45 || n = 46 || n = 95 || n = 126

/-- A byte as `quote_plus` writes it. -/
def quoteByte (b : UInt8) : List Char :=
  if isSafe b.toNat then [Char.ofNat b.toNat]
  else if b.toNat = 32 then ['+']
  else ['%', hexDigit (b.toNat / 16), hexDigit (b.toNat % 16)]

/-- `quote_plus(text)`. -/
def quotePlus (cs : List Char) : List Char := (utf8 cs).flatMap quoteByte

/-- The byte of `%XX`. -/
def hexByte (a b : Char) : Option UInt8 := do
  let m ← hexValue a
  let n ← hexValue b
  return UInt8.ofNat (m * 16 + n)

/-- `unquote_to_bytes(text)`: a `%` without two digits behind it stays. -/
def unquoteToBytes : List Char → List UInt8
  | [] => []
  | [c] => String.utf8EncodeChar c
  | [c, a] => String.utf8EncodeChar c ++ unquoteToBytes [a]
  | c :: a :: b :: cs =>
      if c = '%' then
        match hexByte a b with
        | some byte => byte :: unquoteToBytes cs
        | none => String.utf8EncodeChar c ++ unquoteToBytes (a :: b :: cs)
      else String.utf8EncodeChar c ++ unquoteToBytes (a :: b :: cs)

def isAscii (c : Char) : Bool := c.toNat < 128

section Unquote

-- `bytes.decode("utf-8", errors="replace")`
variable (decode : List UInt8 → List Char)

/-- The loop of `unquote` over runs of ASCII characters, in the middle of a run. -/
def unquoteFrom (run : List Char) : List Char → List Char
  | [] => decode (unquoteToBytes run)
  | c :: cs =>
      if isAscii c then unquoteFrom (run ++ [c]) cs
      else decode (unquoteToBytes run) ++ c :: unquoteFrom [] cs

/-- `unquote(text, errors="replace")`. -/
def unquote (cs : List Char) : List Char := if '%' ∈ cs then unquoteFrom decode [] cs else cs

/-- `text.replace("+", " ")`. -/
def plusToSpace (cs : List Char) : List Char := cs.map fun c => if c = '+' then ' ' else c

/-- `unquote_plus(text, errors="replace")`. -/
def unquotePlus (cs : List Char) : List Char := unquote decode (plusToSpace cs)

end Unquote

/-! ## Bytes of texts -/

theorem utf8_cons (c : Char) (cs : List Char) :
    utf8 (c :: cs) = String.utf8EncodeChar c ++ utf8 cs := List.flatMap_cons

theorem utf8_append (cs ds : List Char) : utf8 (cs ++ ds) = utf8 cs ++ utf8 ds := List.flatMap_append

theorem utf8EncodeChar_ne_nil (c : Char) : String.utf8EncodeChar c ≠ [] := fun h =>
  Utf8.codes_utf8EncodeChar_ne_nil c (by rw [h]; rfl)

/-- The word of a code point tells where it ends. -/
theorem utf8EncodeChar_append_inj {c d : Char} {s t : List UInt8}
    (h : String.utf8EncodeChar c ++ s = String.utf8EncodeChar d ++ t) : c = d ∧ s = t := by
  have hcodes := congrArg Utf8.codes h
  rw [Utf8.codes, List.map_append, Utf8.codes, List.map_append] at hcodes
  rcases lt_trichotomy c d with hlt | rfl | hlt
  · exact absurd hcodes ((Utf8.parts_utf8EncodeChar hlt).append_lt _ _).ne
  · exact ⟨rfl, List.append_cancel_left h⟩
  · exact absurd hcodes.symm ((Utf8.parts_utf8EncodeChar hlt).append_lt _ _).ne

/-- Inside a word no byte is the first byte of a word. -/
theorem not_first_of_append {c d : Char} {p s t u : List UInt8} {x : UInt8} (hp : p ≠ [])
    (hd : String.utf8EncodeChar d = p ++ x :: s) (hc : String.utf8EncodeChar c ++ t = x :: u) :
    False := by
  have hinner : ¬x.IsUTF8FirstByte := by
    have hlt : p.length < (String.utf8EncodeChar d).length := by
      rw [hd, List.length_append, List.length_cons]
      omega
    have hx : (String.utf8EncodeChar d)[p.length] = x := by
      simp only [hd, List.getElem_append_right le_rfl, Nat.sub_self, List.getElem_cons_zero]
    rw [← hx, UInt8.isUTF8FirstByte_getElem_utf8EncodeChar, List.length_eq_zero_iff]
    exact hp
  obtain ⟨y, v, hy⟩ := List.exists_cons_of_ne_nil (utf8EncodeChar_ne_nil c)
  have hfirst : y.IsUTF8FirstByte := by
    have hlt : 0 < (String.utf8EncodeChar c).length := by rw [hy]; exact Nat.succ_pos _
    have hx : (String.utf8EncodeChar c)[0] = y := by simp only [hy, List.getElem_cons_zero]
    rw [← hx, UInt8.isUTF8FirstByte_getElem_utf8EncodeChar]
  rw [hy] at hc
  obtain rfl := (List.cons.inj hc).1
  exact hinner hfirst

/-- **A word in the bytes of a text is one of its code points.** -/
theorem exists_split_utf8 {c : Char} {a b : List UInt8} {text : List Char}
    (h : utf8 text = a ++ (String.utf8EncodeChar c ++ b)) :
    ∃ pre post, text = pre ++ c :: post ∧ utf8 pre = a ∧ utf8 post = b := by
  induction text generalizing a with
  | nil =>
    have hnil := (List.append_eq_nil_iff.mp (List.append_eq_nil_iff.mp h.symm).2).1
    exact absurd hnil (utf8EncodeChar_ne_nil c)
  | cons d text ih =>
    rw [utf8_cons] at h
    rcases List.append_eq_append_iff.mp h with ⟨a', rfl, htext⟩ | ⟨s, hd, hs⟩
    · obtain ⟨pre, post, rfl, hpre, hpost⟩ := ih htext
      exact ⟨d :: pre, post, rfl, by rw [utf8_cons, hpre], hpost⟩
    · cases s with
      | nil =>
        obtain ⟨pre, post, rfl, hpre, hpost⟩ := ih (a := []) hs.symm
        exact ⟨d :: pre, post, rfl, by rw [utf8_cons, hpre, hd, List.append_nil, List.append_nil],
          hpost⟩
      | cons x s =>
        by_cases ha : a = []
        · subst ha
          rw [List.nil_append] at hd
          rw [← hd] at hs
          obtain ⟨rfl, rfl⟩ := utf8EncodeChar_append_inj hs
          exact ⟨[], text, rfl, rfl, rfl⟩
        · exact (not_first_of_append ha hd hs).elim

/-! ## Unquoting -/

/-- A character that starts no escape stands for itself. -/
theorem unquoteToBytes_step {d : Char} {cs : List Char}
    (h : d ≠ '%' ∨ ∀ a b rest, cs = a :: b :: rest → hexByte a b = none) :
    unquoteToBytes (d :: cs) = String.utf8EncodeChar d ++ unquoteToBytes cs := by
  match cs with
  | [] => rw [unquoteToBytes, unquoteToBytes, List.append_nil]
  | [_] => rfl
  | a :: b :: rest =>
    rw [unquoteToBytes]
    split
    case isTrue hd => rw [(h.resolve_left (not_not_intro hd)) a b rest rfl]
    case isFalse => rfl

theorem unquoteToBytes_cons {c : Char} (hc : c ≠ '%') (cs : List Char) :
    unquoteToBytes (c :: cs) = String.utf8EncodeChar c ++ unquoteToBytes cs :=
  unquoteToBytes_step (.inl hc)

theorem unquoteToBytes_percent {a b : Char} {byte : UInt8} (h : hexByte a b = some byte)
    (cs : List Char) : unquoteToBytes ('%' :: a :: b :: cs) = byte :: unquoteToBytes cs := by
  rw [unquoteToBytes, if_pos rfl, h]

/-- A text without `%` stays. -/
theorem unquoteToBytes_of_notMem {cs : List Char} (h : '%' ∉ cs) : unquoteToBytes cs = utf8 cs := by
  induction cs with
  | nil => rfl
  | cons c cs ih =>
    rw [List.mem_cons, not_or] at h
    rw [unquoteToBytes_cons (Ne.symm h.1), ih h.2, utf8_cons]

theorem hexValue_of_not_ascii {c : Char} (h : isAscii c = false) : hexValue c = none := by
  have h' : ¬ c.toNat < 128 := of_decide_eq_false h
  rw [hexValue]
  split_ifs <;> first | omega | rfl

theorem hexByte_left {c : Char} (h : isAscii c = false) (b : Char) : hexByte c b = none := by
  rw [hexByte, hexValue_of_not_ascii h]
  rfl

theorem hexByte_right {c : Char} (h : isAscii c = false) (a : Char) : hexByte a c = none := by
  rw [hexByte, hexValue_of_not_ascii h]
  cases hexValue a <;> rfl

/-- A character that is not ASCII ends every escape in front of it. -/
theorem unquoteToBytes_append {c : Char} (hc : isAscii c = false) (b : List Char) (a : List Char) :
    unquoteToBytes (a ++ c :: b) =
      unquoteToBytes a ++ (String.utf8EncodeChar c ++ unquoteToBytes b) := by
  have hne : c ≠ '%' := fun h => absurd (h ▸ hc : isAscii '%' = false) (by decide)
  induction a using unquoteToBytes.induct with
  | case1 => exact unquoteToBytes_cons hne b
  | case2 d =>
    have hstep : unquoteToBytes (d :: c :: b) = _ := unquoteToBytes_step (.inr fun x y rest h => by
      rw [← (List.cons.inj h).1, hexByte_left hc])
    rw [List.singleton_append, hstep, unquoteToBytes_cons hne, unquoteToBytes]
  | case3 d a ih =>
    have hstep : unquoteToBytes (d :: ([a] ++ c :: b)) = _ :=
      unquoteToBytes_step (.inr fun x y rest h => by
        rw [← (List.cons.inj (List.cons.inj h).2).1, hexByte_right hc])
    have hpair : unquoteToBytes [d, a] = String.utf8EncodeChar d ++ unquoteToBytes [a] := rfl
    rw [List.cons_append, hstep, ih, hpair, List.append_assoc]
  | case4 a b' cs byte h ih =>
    have hstep : unquoteToBytes ('%' :: a :: b' :: (cs ++ c :: b)) = _ :=
      unquoteToBytes_percent h _
    rw [unquoteToBytes_percent h]
    exact hstep.trans (congrArg (byte :: ·) ih)
  | case5 a b' cs h ih =>
    have hnone : ∀ ds : List Char, unquoteToBytes ('%' :: a :: b' :: ds) = _ := fun ds =>
      unquoteToBytes_step (.inr fun x y rest heq => by
        rw [← (List.cons.inj heq).1, ← (List.cons.inj (List.cons.inj heq).2).1, h])
    rw [hnone, List.append_assoc, ← ih]
    exact hnone _
  | case6 d a b' cs hd ih =>
    rw [unquoteToBytes_cons hd, List.append_assoc, ← ih]
    exact unquoteToBytes_cons hd _

section Lossless

variable {decode : List UInt8 → List Char}

theorem unquoteFrom_of_notMem (hdecode : ∀ cs, decode (utf8 cs) = cs) {run cs : List Char}
    (hrun : '%' ∉ run) (h : '%' ∉ cs) : unquoteFrom decode run cs = run ++ cs := by
  induction cs generalizing run with
  | nil => rw [unquoteFrom, unquoteToBytes_of_notMem hrun, hdecode, List.append_nil]
  | cons c cs ih =>
    rw [List.mem_cons, not_or] at h
    rw [unquoteFrom]
    split
    · rw [ih (fun hmem => (List.mem_append.mp hmem).elim hrun fun hc =>
        h.1 (List.mem_singleton.mp hc)) h.2, List.append_assoc, List.singleton_append]
    · rw [ih List.not_mem_nil h.2, unquoteToBytes_of_notMem hrun, hdecode, List.nil_append]

/-- Texts without escapes are no exception. -/
theorem unquote_eq (hdecode : ∀ cs, decode (utf8 cs) = cs) (cs : List Char) :
    unquote decode cs = unquoteFrom decode [] cs := by
  rw [unquote]
  split
  · rfl
  · rename_i h
    rw [unquoteFrom_of_notMem hdecode List.not_mem_nil h, List.nil_append]

theorem utf8_unquoteFrom (hdecode : ∀ cs, decode (utf8 cs) = cs) {run cs text : List Char}
    (h : utf8 text = unquoteToBytes (run ++ cs)) :
    utf8 (unquoteFrom decode run cs) = unquoteToBytes (run ++ cs) := by
  induction cs generalizing run text with
  | nil =>
    rw [List.append_nil] at h ⊢
    rw [unquoteFrom, ← h, hdecode]
  | cons c cs ih =>
    rw [unquoteFrom]
    split
    · rw [List.append_cons run c cs] at h ⊢
      exact ih h
    · rename_i hc
      have hbytes := unquoteToBytes_append (Bool.eq_false_of_not_eq_true hc) cs run
      rw [hbytes] at h
      obtain ⟨pre, post, rfl, hpre, hpost⟩ := exists_split_utf8 h
      have hrest : utf8 (unquoteFrom decode [] cs) = unquoteToBytes ([] ++ cs) := ih hpost
      rw [hbytes, ← hpre, hdecode, utf8_append, utf8_cons, hrest, List.nil_append]

/-- **Unquoting loses nothing exactly where the bytes are UTF-8.** -/
theorem utf8_unquote_iff (hdecode : ∀ cs, decode (utf8 cs) = cs) (cs : List Char) :
    utf8 (unquote decode cs) = unquoteToBytes cs ↔ ∃ text, utf8 text = unquoteToBytes cs := by
  refine ⟨fun h => ⟨_, h⟩, fun ⟨text, h⟩ => ?_⟩
  rw [unquote_eq hdecode]
  have hrun : utf8 text = unquoteToBytes ([] ++ cs) := h
  exact utf8_unquoteFrom hdecode hrun

end Lossless

/-! ## Quoting -/

/-- A character that quoting leaves or makes. -/
def isQuoted (c : Char) : Bool := isSafe c.toNat || c = '+' || c = '%'

theorem isQuoted_quoteByte : ∀ n < 256, ∀ c ∈ quoteByte (UInt8.ofNat n), isQuoted c = true := by
  have hall : ∀ n < 256, (quoteByte (UInt8.ofNat n)).all isQuoted = true := by decide +kernel
  intro n hn
  exact List.all_eq_true.mp (hall n hn)

theorem isQuoted_quotePlus {cs : List Char} {c : Char} (h : c ∈ quotePlus cs) :
    isQuoted c = true := by
  obtain ⟨b, -, hc⟩ := List.mem_flatMap.mp h
  rw [← UInt8.ofNat_toNat (x := b)] at hc
  exact isQuoted_quoteByte _ b.toNat_lt c hc

theorem safe_byte : ∀ n < 256, isSafe n = true → Char.ofNat n ≠ '+' ∧ Char.ofNat n ≠ '%' ∧
    String.utf8EncodeChar (Char.ofNat n) = [UInt8.ofNat n] := by
  decide +kernel

theorem escaped_byte : ∀ n < 256, hexDigit (n / 16) ≠ '+' ∧ hexDigit (n % 16) ≠ '+' ∧
    hexByte (hexDigit (n / 16)) (hexDigit (n % 16)) = some (UInt8.ofNat n) := by
  decide +kernel

theorem plusToSpace_cons_of_ne {c : Char} (h : c ≠ '+') (cs : List Char) :
    plusToSpace (c :: cs) = c :: plusToSpace cs := by
  rw [plusToSpace, List.map_cons, if_neg h]
  rfl

/-- A byte is read back from what it is written as. -/
theorem unquoteToBytes_quoteByte (b : UInt8) (cs : List Char) :
    unquoteToBytes (plusToSpace (quoteByte b ++ cs)) = b :: unquoteToBytes (plusToSpace cs) := by
  have hb : UInt8.ofNat b.toNat = b := UInt8.ofNat_toNat
  rw [quoteByte]
  split
  case isTrue hsafe =>
    obtain ⟨hplus, hpercent, hword⟩ := safe_byte _ b.toNat_lt hsafe
    rw [List.singleton_append, plusToSpace_cons_of_ne hplus, unquoteToBytes_cons hpercent, hword,
      hb, List.singleton_append]
  case isFalse =>
    split
    case isTrue hblank =>
      have hspace : plusToSpace ('+' :: cs) = ' ' :: plusToSpace cs := rfl
      have hword : String.utf8EncodeChar ' ' = [b] := by
        rw [← hb, hblank]
        rfl
      rw [List.singleton_append, hspace, unquoteToBytes_cons (by decide), hword,
        List.singleton_append]
    case isFalse =>
      obtain ⟨hhigh, hlow, hbyte⟩ := escaped_byte _ b.toNat_lt
      rw [List.cons_append, List.cons_append, List.cons_append, List.nil_append,
        plusToSpace_cons_of_ne (by decide), plusToSpace_cons_of_ne hhigh,
        plusToSpace_cons_of_ne hlow, unquoteToBytes_percent hbyte, hb]

theorem unquoteToBytes_quotePlus (cs : List Char) :
    unquoteToBytes (plusToSpace (quotePlus cs)) = utf8 cs := by
  rw [quotePlus]
  induction utf8 cs with
  | nil => rfl
  | cons b bytes ih => rw [List.flatMap_cons, unquoteToBytes_quoteByte, ih]

theorem utf8_injective {cs ds : List Char} (h : utf8 cs = utf8 ds) : cs = ds := by
  induction cs generalizing ds with
  | nil =>
    cases ds with
    | nil => rfl
    | cons d ds =>
      rw [utf8_cons] at h
      exact absurd (List.append_eq_nil_iff.mp h.symm).1 (utf8EncodeChar_ne_nil d)
  | cons c cs ih =>
    cases ds with
    | nil =>
      rw [utf8_cons] at h
      exact absurd (List.append_eq_nil_iff.mp h).1 (utf8EncodeChar_ne_nil c)
    | cons d ds =>
      rw [utf8_cons, utf8_cons] at h
      obtain ⟨rfl, hrest⟩ := utf8EncodeChar_append_inj h
      rw [ih hrest]

/-- **What is quoted is unquoted again.** -/
theorem unquotePlus_quotePlus {decode : List UInt8 → List Char}
    (hdecode : ∀ cs, decode (utf8 cs) = cs) (cs : List Char) :
    unquotePlus decode (quotePlus cs) = cs := by
  refine utf8_injective ?_
  have hbytes := unquoteToBytes_quotePlus cs
  rw [unquotePlus, (utf8_unquote_iff hdecode _).mpr ⟨cs, hbytes.symm⟩, hbytes]

end Sana.Lib.Percent
