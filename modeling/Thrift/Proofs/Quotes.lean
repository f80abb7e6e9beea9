-- String literals. A script reads a literal between double quotes as JavaScript does, by code units
-- and with every escape of the language. What `quote` writes stands on one line, ends at its own
-- last quote whatever follows it, and is read as the string that it was written for and no other.
import Thrift.Script.Expression

namespace Thrift.Script

/-! ## Code units -/

/-- The code units of a code point: one, or a pair of surrogates. -/
def codeUnits (n : Nat) : List UInt16 :=
  if n < 0x10000 then [.ofNat n]
  else [.ofNat (0xD800 + (n - 0x10000) / 0x400), .ofNat (0xDC00 + (n - 0x10000) % 0x400)]

/-- The value of a string in a script. -/
def unitsOf (s : String) : List UInt16 := s.toList.flatMap fun c => codeUnits c.toNat

/-- Where the units of one character end is told by the units themselves. -/
theorem codeUnits_append_inj {c d : Char} {us vs : List UInt16}
    (h : codeUnits c.toNat ++ us = codeUnits d.toNat ++ vs) : c = d ∧ us = vs := by
  have hc : c.toNat < 0xD800 ∨ 0xDFFF < c.toNat ∧ c.toNat < 0x110000 := c.valid
  have hd : d.toNat < 0xD800 ∨ 0xDFFF < d.toNat ∧ d.toNat < 0x110000 := d.valid
  have heq : ∀ {m n : Nat}, UInt16.ofNat m = .ofNat n → m % 0x10000 = n % 0x10000 := by
    intro m n hmn
    simpa using congrArg UInt16.toNat hmn
  unfold codeUnits at h
  rw [← Char.toNat_inj]
  -- A high surrogate is not the unit of a character that has only one.
  split at h <;> split at h
  · obtain ⟨hunit, hrest⟩ := List.cons_eq_cons.mp h
    have := heq hunit
    exact ⟨by omega, hrest⟩
  · have := heq (List.cons_eq_cons.mp h).1
    omega
  · have := heq (List.cons_eq_cons.mp h).1
    omega
  · obtain ⟨hhigh, hlow⟩ := List.cons_eq_cons.mp h
    obtain ⟨hlow, hrest⟩ := List.cons_eq_cons.mp hlow
    have := heq hhigh
    have := heq hlow
    exact ⟨by omega, hrest⟩

theorem codeUnits_ne_nil (n : Nat) : codeUnits n ≠ [] := by
  unfold codeUnits
  split <;> exact List.cons_ne_nil _ _

theorem flatMap_codeUnits_inj {cs ds : List Char}
    (h : (cs.flatMap fun c => codeUnits c.toNat) = ds.flatMap fun c => codeUnits c.toNat) :
    cs = ds := by
  induction cs generalizing ds with
  | nil =>
    cases ds with
    | nil => rfl
    | cons d ds => simp [codeUnits_ne_nil] at h
  | cons c cs ih =>
    cases ds with
    | nil => simp [codeUnits_ne_nil] at h
    | cons d ds =>
      rw [List.flatMap_cons, List.flatMap_cons] at h
      obtain ⟨rfl, hrest⟩ := codeUnits_append_inj h
      rw [ih hrest]

/-- No two strings have the same value. -/
theorem unitsOf_inj {s s' : String} (h : unitsOf s = unitsOf s') : s = s' :=
  String.toList_inj.mp (flatMap_codeUnits_inj h)

/-! ## Reading a literal -/

/-- The number that hexadecimal digits stand for. -/
def hexNumber? (digits : List Char) : Option Nat :=
  digits.foldlM (fun n c => (Json.hexValue c).map (n * 16 + ·)) 0

/-- The unit that is told by this many hexadecimal digits. -/
def hexUnit? (width : Nat) (cs : List Char) : Option (List UInt16 × List Char) :=
  if cs.length < width then none
  else (hexNumber? (cs.take width)).map fun n => ([.ofNat n], cs.drop width)

/-- The code point between braces, after the opening one. -/
def codePoint? (cs : List Char) : Option (List UInt16 × List Char) :=
  let digits := cs.takeWhile (· != '\x7d')
  match hexNumber? digits, cs.drop digits.length with
  | some n, _ :: rest => if digits = [] ∨ 0x10FFFF < n then none else some (codeUnits n, rest)
  | _, _ => none

/-- The characters that end a line. -/
def endsLine (c : Char) : Bool := c = '\n' || c = '\r' || c = '\u2028' || c = '\u2029'

/-- What a character means after a backslash where it begins no longer escape. -/
def escapeUnits (c : Char) : List UInt16 :=
  match c with
  | 'b' => [0x08]
  | 't' => [0x09]
  | 'n' => [0x0A]
  | 'v' => [0x0B]
  | 'f' => [0x0C]
  | 'r' => [0x0D]
  | c => codeUnits c.toNat

/-- The units of an escape, after its backslash, and what follows them. The end of a line is
passed over, and digits mean nothing but for a lone zero. -/
def readEscape : List Char → Option (List UInt16 × List Char)
  | [] => none
  | 'x' :: cs => hexUnit? 2 cs
  | 'u' :: '\x7b' :: cs => codePoint? cs
  | 'u' :: cs => hexUnit? 4 cs
  | '0' :: cs => if cs.head?.any (·.isDigit) then none else some ([0], cs)
  | '\r' :: '\n' :: cs => some ([], cs)
  | c :: cs =>
    if endsLine c then some ([], cs)
    else if c.isDigit then none
    else some (escapeUnits c, cs)

/-- The units of one character or escape, and what follows them. A literal does not go over a line
feed or a carriage return; the other two ends of a line may stand in it. -/
def readPart : List Char → Option (List UInt16 × List Char)
  | [] => none
  | '\\' :: cs => readEscape cs
  | c :: cs => if c = '\n' ∨ c = '\r' then none else some (codeUnits c.toNat, cs)

theorem length_hexUnit? {width : Nat} {cs rest : List Char} {units : List UInt16}
    (h : hexUnit? width cs = some (units, rest)) : rest.length ≤ cs.length := by
  unfold hexUnit? at h
  split at h
  · cases h
  · obtain ⟨n, -, hrest⟩ := Option.map_eq_some_iff.mp h
    cases hrest
    rw [List.length_drop]
    omega

theorem length_codePoint? {cs rest : List Char} {units : List UInt16}
    (h : codePoint? cs = some (units, rest)) : rest.length ≤ cs.length := by
  unfold codePoint? at h
  dsimp only at h
  split at h
  · rename_i n _ rest' _ hrest
    split at h
    · cases h
    · cases h
      have := congrArg List.length hrest
      rw [List.length_drop, List.length_cons] at this
      omega
  · cases h

/-- An escape ends within the text. -/
theorem length_readEscape {cs rest : List Char} {units : List UInt16}
    (h : readEscape cs = some (units, rest)) : rest.length ≤ cs.length := by
  unfold readEscape at h
  split at h
  · cases h
  · exact Nat.le_succ_of_le (length_hexUnit? h)
  · have := length_codePoint? h
    simp only [List.length_cons]
    omega
  · exact Nat.le_succ_of_le (length_hexUnit? h)
  · split at h
    · cases h
    · cases h
      exact Nat.le_succ _
  · cases h
    simp only [List.length_cons]
    omega
  · split at h
    · cases h
      exact Nat.le_succ _
    · split at h
      · cases h
      · cases h
        exact Nat.le_succ _

theorem length_readPart {cs rest : List Char} {units : List UInt16}
    (h : readPart cs = some (units, rest)) : rest.length < cs.length := by
  unfold readPart at h
  split at h
  · cases h
  · exact Nat.lt_succ_of_le (length_readEscape h)
  · split at h
    · cases h
    · cases h
      exact Nat.lt_succ_self _

/-- The units up to the quote that ends the literal, and what follows it. -/
def readParts (cs : List Char) : Option (List UInt16 × List Char) :=
  if cs.head? = some '"' then some ([], cs.tail)
  else
    match _h : readPart cs with
    | none => none
    | some (units, rest) => (readParts rest).map fun (more, rest) => (units ++ more, rest)
termination_by cs.length
decreasing_by exact length_readPart _h

/-- The value of the literal at the beginning of a text, and what follows it. -/
def readLiteral (text : String) : Option (List UInt16 × String) :=
  if text.toList.head? = some '"' then
    (readParts text.toList.tail).map fun (units, rest) => (units, String.ofList rest)
  else none

theorem readParts_quote (cs : List Char) : readParts ('"' :: cs) = some ([], cs) := by
  rw [readParts]
  rfl

theorem readParts_of_part {cs rest : List Char} {units : List UInt16}
    (h : readPart cs = some (units, rest)) (hquote : cs.head? ≠ some '"') :
    readParts cs = (readParts rest).map fun (more, rest) => (units ++ more, rest) := by
  rw [readParts, if_neg hquote]
  split
  · rename_i hnone
    cases h.symm.trans hnone
  · rename_i heq
    cases h.symm.trans heq
    rfl

/-! ## Spellings -/

/-- The digits in the escape of a control character. -/
def controlDigits (n : Nat) : List Char :=
  List.replicate (4 - (Nat.toDigits 16 n).length) '0' ++ Nat.toDigits 16 n

theorem toList_controlEscape (c : Char) :
    (Json.controlEscape c).toList = '\\' :: 'u' :: controlDigits c.toNat := by
  simp [Json.controlEscape, controlDigits]

theorem controlDigits_read {n : Nat} (h : n < 0x20) : (controlDigits n).length = 4 ∧
    hexNumber? (controlDigits n) = some n ∧
    ∀ c ∈ controlDigits n, (Json.hexValue c).isSome ∧ 0x20 ≤ c.toNat := by
  -- `List.all` runs over the digits; a `∀` would be decided over every character there is.
  have hall : ∀ n < 0x20, (controlDigits n).length = 4 ∧ hexNumber? (controlDigits n) = some n ∧
      (controlDigits n).all fun c => (Json.hexValue c).isSome && 0x20 ≤ c.toNat := by
    decide
  simpa using hall n h

/-- Four digits behind a backslash and a `u` are read as their number. -/
theorem readEscape_unit {digits : List Char} {n : Nat} (hlength : digits.length = 4)
    (hread : hexNumber? digits = some n) (hdigits : ∀ d ∈ digits, (Json.hexValue d).isSome)
    (rest : List Char) : readEscape ('u' :: (digits ++ rest)) = some ([.ofNat n], rest) := by
  have hunit : hexUnit? 4 (digits ++ rest) = some ([.ofNat n], rest) := by
    rw [hexUnit?, if_neg (by simp [hlength]), List.take_left' hlength, List.drop_left' hlength,
      hread]
    rfl
  cases digits with
  | nil => cases hlength
  | cons d ds =>
    have hbrace : d ≠ '\x7b' := by
      rintro rfl
      exact absurd (hdigits _ List.mem_cons_self) (by decide)
    rw [← hunit, List.cons_append, readEscape]
    simpa using hbrace

/-- How a character is spelled between the quotes of a literal. -/
inductive Spelling (c : Char) : List Char → Prop
  | plain (hquote : c ≠ '"') (hslash : c ≠ '\\') (hcontrol : 0x20 ≤ c.toNat) : Spelling c [c]
  | letter (e : Char) (he : e ∈ ['"', '\\', 'n', 'r', 't'])
      (hunits : escapeUnits e = codeUnits c.toNat) : Spelling c ['\\', e]
  | control (h : c.toNat < 0x20) : Spelling c ('\\' :: 'u' :: controlDigits c.toNat)

theorem spelling_quotedChar (c : Char) : Spelling c (quotedChar c).toList := by
  unfold quotedChar
  split
  · exact .letter '"' (by decide) rfl
  · exact .letter '\\' (by decide) rfl
  · exact .letter 'n' (by decide) rfl
  · exact .letter 'r' (by decide) rfl
  · exact .letter 't' (by decide) rfl
  · rename_i hquote hslash _ _ _
    split
    · rename_i hcontrol
      rw [toList_controlEscape]
      exact .control hcontrol
    · rename_i hcontrol
      rw [Char.toString_eq_singleton, String.toList_singleton]
      exact .plain hquote hslash (Nat.not_lt.mp hcontrol)

namespace Spelling

variable {c : Char} {cs : List Char}

/-- A spelling is read as the character, whatever follows it. -/
theorem readPart_append (h : Spelling c cs) (rest : List Char) :
    readPart (cs ++ rest) = some (codeUnits c.toNat, rest) := by
  cases h with
  | plain hquote hslash hcontrol =>
    have hline : ¬ (c = '\n' ∨ c = '\r') := by
      rintro (rfl | rfl) <;> exact absurd hcontrol (by decide)
    rw [List.singleton_append, readPart, if_neg hline]
    exact hslash
  | letter e he hunits =>
    rw [← hunits]
    simp only [List.mem_cons, List.not_mem_nil, or_false] at he
    rcases he with rfl | rfl | rfl | rfl | rfl <;> rfl
  | control hcontrol =>
    obtain ⟨hlength, hread, hdigits⟩ := controlDigits_read hcontrol
    have hone : codeUnits c.toNat = [.ofNat c.toNat] := if_pos (by omega)
    rw [hone]
    exact readEscape_unit hlength hread (fun d hd => (hdigits d hd).1) rest

/-- A spelling does not begin with the quote that would end the literal. -/
theorem head?_append (h : Spelling c cs) (rest : List Char) : (cs ++ rest).head? ≠ some '"' := by
  cases h with
  | plain hquote => simpa using hquote
  | letter | control => simp

theorem printable (h : Spelling c cs) : ∀ d ∈ cs, 0x20 ≤ d.toNat := by
  cases h with
  | plain _ _ hcontrol => simpa using hcontrol
  | letter e he =>
    have hall : ['"', '\\', 'n', 'r', 't'].all fun e => 0x20 ≤ e.toNat := by decide
    have hletter : 0x20 ≤ e.toNat := of_decide_eq_true (List.all_eq_true.mp hall e he)
    exact List.forall_mem_cons.mpr ⟨by decide, List.forall_mem_singleton.mpr hletter⟩
  | control hcontrol =>
    intro d hd
    rcases List.mem_cons.mp hd with rfl | hd
    · decide
    rcases List.mem_cons.mp hd with rfl | hd
    · decide
    · exact ((controlDigits_read hcontrol).2.2 d hd).2

end Spelling

/-! ## Backslashes -/

/-- How many backslashes a text ends with. -/
def slashes (cs : List Char) : Nat := (cs.reverse.takeWhile (· == '\\')).length

theorem slashes_concat (cs : List Char) (c : Char) :
    slashes (cs ++ [c]) = if c = '\\' then slashes cs + 1 else 0 := by
  unfold slashes
  rw [List.reverse_append, List.reverse_singleton, List.singleton_append, List.takeWhile_cons]
  split <;> simp_all

/-- Backslashes go in pairs with what follows them, and no quote is outside of such a pair. -/
inductive Escaped : List Char → Prop
  | nil : Escaped []
  | plain {c : Char} {cs : List Char} (hquote : c ≠ '"') (hslash : c ≠ '\\') (h : Escaped cs) :
      Escaped (c :: cs)
  | pair (c : Char) {cs : List Char} (h : Escaped cs) : Escaped ('\\' :: c :: cs)

namespace Escaped

variable {as bs : List Char}

theorem append (ha : Escaped as) (hb : Escaped bs) : Escaped (as ++ bs) := by
  induction ha with
  | nil => exact hb
  | plain hquote hslash _ ih => exact .plain hquote hslash ih
  | pair c _ ih => exact .pair c ih

theorem of_plain (h : ∀ c ∈ as, c ≠ '"' ∧ c ≠ '\\') : Escaped as := by
  induction as with
  | nil => exact .nil
  | cons c as ih =>
    obtain ⟨hc, has⟩ := List.forall_mem_cons.mp h
    exact .plain hc.1 hc.2 (ih has)

theorem flatMap {α : Type} {f : α → List Char} (h : ∀ a, Escaped (f a)) (l : List α) :
    Escaped (l.flatMap f) := by
  induction l with
  | nil => exact .nil
  | cons a l ih => exact (h a).append ih

/-- After a text whose last backslashes are in pairs, an odd number of backslashes stands before
each quote, and the last ones are in pairs again. -/
theorem slashes_parity (h : Escaped as) {lead : List Char} (hlead : slashes lead % 2 = 0) :
    slashes (lead ++ as) % 2 = 0 ∧
      ∀ before behind, as = before ++ '"' :: behind → slashes (lead ++ before) % 2 = 1 := by
  induction h generalizing lead with
  | nil => simpa using hlead
  | @plain c cs hquote hslash h ih =>
    have hnext : slashes (lead ++ [c]) % 2 = 0 := by rw [slashes_concat, if_neg hslash]
    obtain ⟨heven, hodd⟩ := ih hnext
    rw [List.append_assoc] at heven
    refine ⟨heven, fun before behind heq => ?_⟩
    cases before with
    | nil => exact absurd (List.cons_eq_cons.mp heq).1 hquote
    | cons d before =>
      obtain ⟨rfl, hcs⟩ := List.cons_eq_cons.mp heq
      have := hodd before behind hcs
      rwa [List.append_assoc] at this
  | @pair c cs h ih =>
    have hslash : slashes (lead ++ ['\\']) = slashes lead + 1 := by
      rw [slashes_concat, if_pos rfl]
    have hnext : slashes (lead ++ ['\\'] ++ [c]) % 2 = 0 := by
      rw [slashes_concat, hslash]
      split <;> omega
    obtain ⟨heven, hodd⟩ := ih hnext
    rw [List.append_assoc, List.append_assoc] at heven
    refine ⟨heven, fun before behind heq => ?_⟩
    cases before with
    | nil => exact absurd (List.cons_eq_cons.mp heq).1 (by decide)
    | cons d before =>
      obtain ⟨rfl, hpair⟩ := List.cons_eq_cons.mp heq
      -- Only the second character of the pair can be the quote, and then the first one is odd.
      cases before with
      | nil => omega
      | cons d before =>
        obtain ⟨rfl, hcs⟩ := List.cons_eq_cons.mp hpair
        have := hodd before behind hcs
        rwa [List.append_assoc, List.append_assoc] at this

end Escaped

theorem Spelling.escaped {c : Char} {cs : List Char} (h : Spelling c cs) : Escaped cs := by
  cases h with
  | plain hquote hslash => exact .plain hquote hslash .nil
  | letter e => exact .pair e .nil
  | control hcontrol =>
    obtain ⟨-, -, hdigits⟩ := controlDigits_read hcontrol
    refine .pair 'u' (.of_plain fun d hd => ⟨?_, ?_⟩) <;>
    · rintro rfl
      exact absurd (hdigits _ hd).1 (by decide)

/-! ## Quotes -/

/-- What stands between the quotes of a literal. -/
def between (s : String) : List Char := s.toList.flatMap fun c => (quotedChar c).toList

theorem toList_quote (s : String) : (quote s).toList = '"' :: (between s ++ ['"']) := by
  simp [quote, between, String.toList_join, List.flatMap_map]

theorem escaped_between (s : String) : Escaped (between s) :=
  .flatMap (fun c => (spelling_quotedChar c).escaped) _

theorem printable_quote {s : String} : ∀ c ∈ (quote s).toList, 0x20 ≤ c.toNat := by
  intro c hc
  rw [toList_quote, List.mem_cons, List.mem_append, between, List.mem_flatMap] at hc
  rcases hc with rfl | ⟨d, -, hd⟩ | hc
  · decide
  · exact (spelling_quotedChar d).printable c hd
  · rw [List.mem_singleton.mp hc]
    decide

theorem readParts_between (s : String) (rest : List Char) :
    readParts (between s ++ '"' :: rest) = some (unitsOf s, rest) := by
  unfold between unitsOf
  induction s.toList with
  | nil => exact readParts_quote rest
  | cons c cs ih =>
    have h := spelling_quotedChar c
    rw [List.flatMap_cons, List.flatMap_cons, List.append_assoc,
      readParts_of_part (h.readPart_append _) (h.head?_append _), ih]
    rfl

/-- A literal ends with its own last quote, whatever follows it. -/
theorem readLiteral_quote (s rest : String) :
    readLiteral (quote s ++ rest) = some (unitsOf s, rest) := by
  have htext : (quote s ++ rest).toList = '"' :: (between s ++ '"' :: rest.toList) := by
    rw [String.toList_append, toList_quote, List.cons_append, List.append_assoc,
      List.singleton_append]
  rw [readLiteral, htext, if_pos List.head?_cons, List.tail_cons, readParts_between]
  exact congrArg (fun t => some (unitsOf s, t)) String.ofList_toList

/-- A literal is one line between two quotes, of which the last one is not escaped and every other
one inside is. It is read as exactly the string, whatever follows it, so that the literal of a
constant or of a name does not end early; and two strings have neither the value nor the literal
in common. -/
theorem quote_reads_back (s : String) :
    (∃ inner, (quote s).toList = '"' :: (inner ++ ['"']) ∧ slashes inner % 2 = 0 ∧
        ∀ before behind, inner = before ++ '"' :: behind → slashes before % 2 = 1) ∧
      (∀ c ∈ (quote s).toList, 0x20 ≤ c.toNat) ∧
      (∀ rest, readLiteral (quote s ++ rest) = some (unitsOf s, rest) ∧
        readLiteral (literal (.string s) ++ rest) = some (unitsOf s, rest)) ∧
      ∀ s', (unitsOf s' = unitsOf s → s' = s) ∧ (quote s' = quote s → s' = s) := by
  have hnone : slashes [] % 2 = 0 := rfl
  obtain ⟨heven, hodd⟩ := (escaped_between s).slashes_parity hnone
  refine ⟨⟨between s, toList_quote s, heven, hodd⟩, printable_quote,
    fun rest => ⟨readLiteral_quote s rest, readLiteral_quote s rest⟩,
    fun s' => ⟨unitsOf_inj, fun h => ?_⟩⟩
  have hread := readLiteral_quote s' ""
  rw [h, readLiteral_quote s ""] at hread
  obtain ⟨hunits, -⟩ := Prod.mk.inj (Option.some.inj hread)
  exact (unitsOf_inj hunits).symm

/-- A remark with everything that needs care: quotes, a backslash before one of them, a control
character before what could be a further digit, and a character of two units. -/
def remark : String := "say \"\\\"\x01f😀"

theorem quote_reads_back_remark :
    quote remark = "\"say \\\"\\\\\\\"\\u0001f😀\"" ∧
      slashes (between remark) % 2 = 0 ∧
      readLiteral (quote remark ++ " + \"\";") =
        some ([115, 97, 121, 32, 34, 92, 34, 1, 102, 0xD83D, 0xDE00], " + \"\";") := by
  obtain ⟨⟨inner, hinner, heven, -⟩, -, hread, -⟩ := quote_reads_back remark
  have hbetween : between remark = inner := by
    rw [toList_quote] at hinner
    exact List.append_cancel_right (List.cons_eq_cons.mp hinner).2
  refine ⟨by decide +kernel, hbetween ▸ heven, ?_⟩
  rw [(hread _).1]
  rfl

end Thrift.Script
