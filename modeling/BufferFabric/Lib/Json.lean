import Mathlib.Algebra.Field.Rat
import Mathlib.Algebra.Group.Nat.Defs
import Mathlib.Data.Nat.Digits.Lemmas

/-!
# JSON texts

A parser of JSON over bytes, from `0x80` upward taken as they are, and a grammar of the compact
texts: those without white space, whose numbers are integers. The parser reads every compact text
as the value that it spells.
-/

namespace Json

/-- What a JSON text stands for. The members of an object keep their order, equal keys included. -/
inductive Value where
  | object (members : List (List UInt8 × Value))
  | array (items : List Value)
  | string (text : List UInt8)
  | number (value : ℚ)
  | boolean (value : Bool)
  | null

variable {b c : UInt8} {bs r s t : List UInt8} {n : ℕ} {v : Value}

/-! ### Tokens -/

def isSpace (b : UInt8) : Bool := b = 32 || b = 9 || b = 10 || b = 13

def expect (token : UInt8) (bs : List UInt8) : Option (List UInt8) :=
  match bs.dropWhile isSpace with
  | b :: rest => if b = token then some rest else none
  | [] => none

theorem expect_cons (hb : isSpace b = false) (bs : List UInt8) :
    expect c (b :: bs) = if b = c then some bs else none := by
  unfold expect
  rw [List.dropWhile_cons_of_neg (by simp [hb])]

def literal : List UInt8 → Option (Value × List UInt8)
  | 116 :: 114 :: 117 :: 101 :: rest => some (.boolean true, rest)
  | 102 :: 97 :: 108 :: 115 :: 101 :: rest => some (.boolean false, rest)
  | 110 :: 117 :: 108 :: 108 :: rest => some (.null, rest)
  | _ => none

/-! ### Numbers -/

def isDigit (b : UInt8) : Bool := 48 ≤ b && b ≤ 57

def ofDigits (ds : List UInt8) : ℕ := ds.foldl (fun n d ↦ 10 * n + (d.toNat - 48)) 0

/-- The digits before the point, without a leading zero. -/
def whole (bs : List UInt8) : Option (List UInt8 × List UInt8) :=
  let (ds, rest) := bs.span isDigit
  if ds = [] ∨ (ds.head? = some 48 ∧ ds.length ≠ 1) then none else some (ds, rest)

def fraction : List UInt8 → Option (List UInt8 × List UInt8)
  | 46 :: rest =>
      let (ds, rest) := rest.span isDigit
      if ds = [] then none else some (ds, rest)
  | bs => some ([], bs)

def exponent (bs : List UInt8) : Option (ℤ × List UInt8) :=
  if bs.head? = some 101 ∨ bs.head? = some 69 then
    let (negative, rest) := match bs.tail with
      | 45 :: rest => (true, rest)
      | 43 :: rest => (false, rest)
      | rest => (false, rest)
    let (ds, rest) := rest.span isDigit
    if ds = [] then none else some (if negative then -ofDigits ds else ofDigits ds, rest)
  else some (0, bs)

def magnitude (bs : List UInt8) : Option (ℚ × List UInt8) := do
  let (ds, bs) ← whole bs
  let (fs, bs) ← fraction bs
  let (e, bs) ← exponent bs
  some (ofDigits (ds ++ fs) * 10 ^ (e - fs.length), bs)

def number : List UInt8 → Option (ℚ × List UInt8)
  | 45 :: rest => (magnitude rest).map (Prod.map (-·) id)
  | bs => magnitude bs

/-! ### Strings -/

def shortEscape (b : UInt8) : Option UInt8 :=
  if b = 34 ∨ b = 92 ∨ b = 47 then some b
  else if b = 98 then some 8
  else if b = 102 then some 12
  else if b = 110 then some 10
  else if b = 114 then some 13
  else if b = 116 then some 9
  else none

def hexDigit (b : UInt8) : Option ℕ :=
  if isDigit b then some (b.toNat - 48)
  else if 97 ≤ b ∧ b ≤ 102 then some (b.toNat - 87)
  else if 65 ≤ b ∧ b ≤ 70 then some (b.toNat - 55)
  else none

def codeUnit : List UInt8 → Option (ℕ × List UInt8)
  | a :: b :: c :: d :: rest => do
      let a ← hexDigit a
      let b ← hexDigit b
      let c ← hexDigit c
      let d ← hexDigit d
      some (4096 * a + 256 * b + 16 * c + d, rest)
  | _ => none

/-- The bytes of an escaped character. Two surrogates make one character, and one alone is
refused. -/
def unicode (bs : List UInt8) : Option (List UInt8 × List UInt8) := do
  let (u, rest) ← codeUnit bs
  if 55296 ≤ u ∧ u < 56320 then
    match rest with
    | 92 :: 117 :: rest => do
        let (l, rest) ← codeUnit rest
        if 56320 ≤ l ∧ l < 57344 then
          let code := 65536 + 1024 * (u - 55296) + (l - 56320)
          some (String.utf8EncodeChar (Char.ofNat code), rest)
        else none
    | _ => none
  else if 56320 ≤ u ∧ u < 57344 then none
  else some (String.utf8EncodeChar (Char.ofNat u), rest)

def escape : List UInt8 → Option (List UInt8 × List UInt8)
  | [] => none
  | b :: rest => if b = 117 then unicode rest else (shortEscape b).map fun c ↦ ([c], rest)

/-- The rest of a string whose opening quote was read, in at most so many steps. -/
def string : ℕ → List UInt8 → Option (List UInt8 × List UInt8)
  | n + 1, b :: rest =>
      if b = 34 then some ([], rest)
      else if b = 92 then do
        let (bytes, rest) ← escape rest
        (string n rest).map (Prod.map (bytes ++ ·) id)
      else if b < 32 then none
      else (string n rest).map (Prod.map (b :: ·) id)
  | _, _ => none

/-! ### The parser -/

mutual

def value : ℕ → List UInt8 → Option (Value × List UInt8)
  | 0, _ => none
  | n + 1, bs =>
      match expect 123 bs, expect 91 bs, expect 34 bs with
      | some rest, _, _ => match expect 125 rest with
          | some rest => some (.object [], rest)
          | none => (members n rest).map (Prod.map .object id)
      | none, some rest, _ => match expect 93 rest with
          | some rest => some (.array [], rest)
          | none => (items n rest).map (Prod.map .array id)
      | none, none, some rest => (string n rest).map (Prod.map .string id)
      | none, none, none =>
          let token := bs.dropWhile isSpace
          (literal token).or ((number token).map (Prod.map .number id))

/-- The items of an array, of which there is one at least, and the closing bracket. -/
def items : ℕ → List UInt8 → Option (List Value × List UInt8)
  | 0, _ => none
  | n + 1, bs => do
      let (v, rest) ← value n bs
      match expect 44 rest with
      | some rest => (items n rest).map (Prod.map (v :: ·) id)
      | none => (expect 93 rest).map fun rest ↦ ([v], rest)

/-- The members of an object, of which there is one at least, and the closing brace. -/
def members : ℕ → List UInt8 → Option (List (List UInt8 × Value) × List UInt8)
  | 0, _ => none
  | n + 1, bs => do
      let rest ← expect 34 bs
      let (key, rest) ← string n rest
      let rest ← expect 58 rest
      let (v, rest) ← value n rest
      match expect 44 rest with
      | some rest => (members n rest).map (Prod.map ((key, v) :: ·) id)
      | none => (expect 125 rest).map fun rest ↦ ([(key, v)], rest)

end

/-- The value of a text that holds one value, and white space around its tokens. -/
def parse (bs : List UInt8) : Option Value := do
  let (v, rest) ← value bs.length bs
  if rest.dropWhile isSpace = [] then some v else none

/-! ### Decimals -/

def decimal (n : ℕ) : List UInt8 :=
  if n = 0 then [48] else (Nat.digits 10 n).reverse.map fun d ↦ 48 + UInt8.ofNat d

def Stops (r : List UInt8) : Prop := ∀ b ∈ r.head?, b = 44 ∨ b = 93 ∨ b = 125

theorem Stops.nil : Stops [] := by
  rintro _ ⟨⟩

theorem Stops.cons (hb : b = 44 ∨ b = 93 ∨ b = 125) (r : List UInt8) : Stops (b :: r) := by
  rintro _ ⟨⟩
  exact hb

theorem toNat_digit {d : ℕ} (hd : d < 10) : (48 + UInt8.ofNat d).toNat = 48 + d := by
  rw [UInt8.toNat_add, UInt8.toNat_ofNat']
  change (48 + d % 256) % 256 = 48 + d
  omega

theorem isDigit_iff : isDigit b = true ↔ 48 ≤ b.toNat ∧ b.toNat ≤ 57 := by
  unfold isDigit
  rw [Bool.and_eq_true, decide_eq_true_iff, decide_eq_true_iff, UInt8.le_iff_toNat_le,
    UInt8.le_iff_toNat_le]
  rfl

theorem decimal_isDigit (n : ℕ) : ∀ b ∈ decimal n, isDigit b = true := by
  intro b hb
  unfold decimal at hb
  split at hb
  · obtain rfl := List.mem_singleton.mp hb
    rfl
  · obtain ⟨d, hd, rfl⟩ := List.mem_map.mp hb
    have hlt : d < 10 := Nat.digits_lt_base (by decide) (List.mem_reverse.mp hd)
    rw [isDigit_iff, toNat_digit hlt]
    omega

theorem foldr_digits {ds : List ℕ} (h : ∀ d ∈ ds, d < 10) :
    ds.foldr (fun d n ↦ 10 * n + ((48 + UInt8.ofNat d).toNat - 48)) 0 = Nat.ofDigits 10 ds := by
  induction ds with
  | nil => rfl
  | cons d ds ih =>
      rw [List.foldr_cons, ih fun d' hd' ↦ h d' (List.mem_cons_of_mem d hd'), Nat.ofDigits_cons,
        toNat_digit (h d List.mem_cons_self)]
      omega

theorem ofDigits_decimal (n : ℕ) : ofDigits (decimal n) = n := by
  unfold decimal ofDigits
  split
  · rename_i hn
    rw [hn]
    rfl
  · rw [List.foldl_map, List.foldl_reverse,
      foldr_digits fun d hd ↦ Nat.digits_lt_base (by decide) hd, Nat.ofDigits_digits]

/-- No decimal is empty, and only that of zero begins with a zero. -/
theorem decimal_head (n : ℕ) :
    ∃ b ds, decimal n = b :: ds ∧ isDigit b = true ∧ (b = 48 → ds = []) := by
  unfold decimal
  split
  · exact ⟨48, [], rfl, rfl, fun _ ↦ rfl⟩
  · rename_i hn
    have hne : Nat.digits 10 n ≠ [] := Nat.digits_ne_nil_iff_ne_zero.mpr hn
    have hlt : (Nat.digits 10 n).getLast hne < 10 :=
      Nat.digits_lt_base (by decide) (List.getLast_mem hne)
    have hpos : (Nat.digits 10 n).getLast hne ≠ 0 := Nat.getLast_digit_ne_zero 10 hn
    refine ⟨48 + UInt8.ofNat ((Nat.digits 10 n).getLast hne),
      (Nat.digits 10 n).dropLast.reverse.map fun d ↦ 48 + UInt8.ofNat d, ?_, ?_, ?_⟩
    · have hreverse : (Nat.digits 10 n).reverse =
          (Nat.digits 10 n).getLast hne :: (Nat.digits 10 n).dropLast.reverse := by
        conv_lhs => rw [← List.dropLast_append_getLast hne, List.reverse_append]
        rfl
      rw [hreverse, List.map_cons]
    · rw [isDigit_iff, toNat_digit hlt]
      omega
    · intro hzero
      have hnat := congrArg UInt8.toNat hzero
      rw [toNat_digit hlt] at hnat
      change 48 + _ = 48 at hnat
      omega

theorem span_digits {ds : List UInt8} (hds : ∀ b ∈ ds, isDigit b = true) (hr : Stops r) :
    (ds ++ r).span isDigit = (ds, r) := by
  induction ds with
  | nil =>
      cases r with
      | nil => rfl
      | cons b r =>
          have hb : isDigit b = false := by
            rcases hr b rfl with rfl | rfl | rfl <;> rfl
          rw [List.nil_append, List.span_eq_takeWhile_dropWhile,
            List.takeWhile_cons_of_neg (by simp [hb]), List.dropWhile_cons_of_neg (by simp [hb])]
  | cons b ds ih =>
      have hb := hds b List.mem_cons_self
      have hrest := ih fun b' hb' ↦ hds b' (List.mem_cons_of_mem b hb')
      rw [List.span_eq_takeWhile_dropWhile, Prod.mk.injEq] at hrest ⊢
      rw [List.cons_append, List.takeWhile_cons_of_pos hb, List.dropWhile_cons_of_pos hb, hrest.1,
        hrest.2]
      exact ⟨rfl, rfl⟩

theorem whole_decimal (n : ℕ) (hr : Stops r) : whole (decimal n ++ r) = some (decimal n, r) := by
  obtain ⟨b, ds, hdecimal, -, hzero⟩ := decimal_head n
  unfold whole
  rw [span_digits (decimal_isDigit n) hr]
  refine if_neg ?_
  rw [hdecimal]
  rintro (hnil | ⟨hb, hlength⟩)
  · cases hnil
  · rw [hzero (Option.some.inj hb)] at hlength
    exact hlength rfl

theorem fraction_of_stops (hr : Stops r) : fraction r = some ([], r) := by
  unfold fraction
  split
  · exact absurd (hr 46 rfl) (by decide)
  · rfl

theorem exponent_of_stops (hr : Stops r) : exponent r = some (0, r) := by
  refine if_neg ?_
  rintro (hb | hb)
  · exact absurd (hr 101 hb) (by decide)
  · exact absurd (hr 69 hb) (by decide)

theorem magnitude_decimal (n : ℕ) (hr : Stops r) :
    magnitude (decimal n ++ r) = some ((n : ℚ), r) := by
  unfold magnitude
  rw [whole_decimal n hr]
  change (do
    let (fs, bs) ← fraction r
    let (e, bs) ← exponent bs
    some (ofDigits (decimal n ++ fs) * 10 ^ (e - fs.length), bs)) = some ((n : ℚ), r)
  rw [fraction_of_stops hr]
  change (do
    let (e, bs) ← exponent r
    some ((ofDigits (decimal n ++ []) : ℚ) * 10 ^ (e - ([] : List UInt8).length), bs)) =
      some ((n : ℚ), r)
  rw [exponent_of_stops hr]
  simp [ofDigits_decimal]

theorem number_natural (n : ℕ) (hr : Stops r) : number (decimal n ++ r) = some ((n : ℚ), r) := by
  obtain ⟨b, ds, hdecimal, hb, -⟩ := decimal_head n
  have hsign : b ≠ 45 := by
    rintro rfl
    cases hb
  rw [← magnitude_decimal n hr, hdecimal]
  unfold number
  split
  · rename_i heq
    exact absurd (List.cons.inj heq).1 hsign
  · rfl

theorem number_negative (n : ℕ) (hr : Stops r) :
    number (45 :: decimal n ++ r) = some (-(n : ℚ), r) := by
  change (magnitude (decimal n ++ r)).map _ = _
  rw [magnitude_decimal n hr]
  rfl

/-! ### Strings that are written -/

def hexChar (d : ℕ) : UInt8 := if d < 10 then 48 + UInt8.ofNat d else 87 + UInt8.ofNat d

theorem hexDigit_hexChar {d : ℕ} (hd : d < 16) : hexDigit (hexChar d) = some d := by
  revert d
  decide

inductive Escape : UInt8 → List UInt8 → Prop
  | plain {b : UInt8} (hb : 32 ≤ b) (hquote : b ≠ 34) (hslash : b ≠ 92) : Escape b [b]
  | short {b c : UInt8} (h : shortEscape c = some b) : Escape b [92, c]
  | code {b : UInt8} (hb : b.toNat < 128) :
      Escape b [92, 117, 48, 48, hexChar (b.toNat / 16), hexChar (b.toNat % 16)]

inductive Quoted : List UInt8 → List UInt8 → Prop
  | done : Quoted [] [34]
  | cons {b : UInt8} {code s t : List UInt8} (hb : Escape b code) (ht : Quoted s t) :
      Quoted (b :: s) (code ++ t)

theorem utf8EncodeChar_ascii {n : ℕ} (hn : n < 128) :
    String.utf8EncodeChar (Char.ofNat n) = [UInt8.ofNat n] := by
  have hvalid : n.isValidChar := .inl (by omega)
  have hval : (Char.ofNat n).val.toNat = n := by
    rw [Char.ofNat, dif_pos hvalid]
    rfl
  unfold String.utf8EncodeChar
  rw [hval]
  exact if_pos (by omega)

theorem escape_short (h : shortEscape c = some b) (r : List UInt8) :
    escape (c :: r) = some ([b], r) := by
  have hletter : c ≠ 117 := by
    rintro rfl
    cases h
  change (if c = 117 then unicode r else (shortEscape c).map fun b ↦ ([b], r)) = _
  rw [if_neg hletter, h]
  rfl

theorem escape_code (hb : b.toNat < 128) (r : List UInt8) :
    escape (117 :: 48 :: 48 :: hexChar (b.toNat / 16) :: hexChar (b.toNat % 16) :: r) =
      some ([b], r) := by
  have hunit : codeUnit (48 :: 48 :: hexChar (b.toNat / 16) :: hexChar (b.toNat % 16) :: r) =
      some (b.toNat, r) := by
    have hhigh : hexDigit (hexChar (b.toNat / 16)) = some (b.toNat / 16) :=
      hexDigit_hexChar (by omega)
    have hlow : hexDigit (hexChar (b.toNat % 16)) = some (b.toNat % 16) :=
      hexDigit_hexChar (by omega)
    simp only [codeUnit, hhigh, hlow]
    change some (4096 * 0 + 256 * 0 + 16 * (b.toNat / 16) + b.toNat % 16, r) = _
    rw [Option.some.injEq, Prod.mk.injEq]
    exact ⟨by omega, rfl⟩
  change unicode _ = _
  unfold unicode
  rw [hunit]
  dsimp only [Option.bind_eq_bind, Option.bind_some]
  rw [if_neg (by omega), if_neg (by omega), utf8EncodeChar_ascii hb, UInt8.ofNat_toNat]

theorem string_backslash {bytes : List UInt8} (h : escape bs = some (bytes, r)) (n : ℕ) :
    string (n + 1) (92 :: bs) = (string n r).map (Prod.map (bytes ++ ·) id) := by
  change (do
    let (bytes, rest) ← escape bs
    (string n rest).map (Prod.map (bytes ++ ·) id)) = _
  rw [h]
  rfl

theorem string_plain (hb : 32 ≤ b) (hquote : b ≠ 34) (hslash : b ≠ 92) (n : ℕ) :
    string (n + 1) (b :: bs) = (string n bs).map (Prod.map (b :: ·) id) := by
  have hcontrol : ¬b < 32 := UInt8.not_lt.mpr hb
  rw [string, if_neg hquote, if_neg hslash, if_neg hcontrol]

theorem string_quoted (h : Quoted s t) :
    ∀ {n r}, t.length ≤ n → string n (t ++ r) = some (s, r) := by
  induction h with
  | done =>
      rintro (_ | n) r hn
      · cases hn
      · rfl
  | cons hb ht ih =>
      rename_i b code s t
      rintro (_ | n) r hn
      · cases hb <;> cases hn
      rw [List.length_append] at hn
      cases hb with
      | plain hb hquote hslash =>
          refine (string_plain hb hquote hslash n).trans ?_
          change (string n (t ++ r)).map _ = _
          rw [ih (by simp at hn; omega)]
          rfl
      | short hc =>
          refine (string_backslash (escape_short hc (t ++ r)) n).trans ?_
          rw [ih (by simp at hn; omega)]
          rfl
      | code hb =>
          refine (string_backslash (escape_code hb (t ++ r)) n).trans ?_
          rw [ih (by simp at hn; omega)]
          rfl

/-! ### Compact texts -/

/-- The parts of a text: a value, and what follows an opening bracket or brace. -/
inductive Phrase where
  | value (v : Value)
  | items (vs : List Value)
  | members (ms : List (List UInt8 × Value))

inductive Spells : Phrase → List UInt8 → Prop
  | noMembers : Spells (.value (.object [])) [123, 125]
  | object {ms} {t : List UInt8} (h : Spells (.members ms) t) : Spells (.value (.object ms)) (123 :: t)
  | noItems : Spells (.value (.array [])) [91, 93]
  | array {vs} {t : List UInt8} (h : Spells (.items vs) t) : Spells (.value (.array vs)) (91 :: t)
  | string {s t : List UInt8} (h : Quoted s t) : Spells (.value (.string s)) (34 :: t)
  | natural (n : ℕ) : Spells (.value (.number n)) (decimal n)
  | negative (n : ℕ) : Spells (.value (.number (-n))) (45 :: decimal n)
  | yes : Spells (.value (.boolean true)) [116, 114, 117, 101]
  | no : Spells (.value (.boolean false)) [102, 97, 108, 115, 101]
  | null : Spells (.value .null) [110, 117, 108, 108]
  | lastItem {v : Value} {t : List UInt8} (h : Spells (.value v) t) : Spells (.items [v]) (t ++ [93])
  | item {v : Value} {vs} {t u : List UInt8} (h : Spells (.value v) t)
      (hs : Spells (.items vs) u) : Spells (.items (v :: vs)) (t ++ 44 :: u)
  | lastMember {k q} {v : Value} {t : List UInt8} (hk : Quoted k q) (h : Spells (.value v) t) :
      Spells (.members [(k, v)]) (34 :: (q ++ 58 :: (t ++ [125])))
  | member {k q} {v : Value} {ms} {t u : List UInt8} (hk : Quoted k q) (h : Spells (.value v) t)
      (hs : Spells (.members ms) u) :
      Spells (.members ((k, v) :: ms)) (34 :: (q ++ 58 :: (t ++ 44 :: u)))

/-- A text that neither begins with white space nor closes anything. -/
def Starts (t : List UInt8) : Prop :=
  ∃ b u, t = b :: u ∧ isSpace b = false ∧ b ≠ 93 ∧ b ≠ 125

theorem Starts.append (h : Starts t) (r : List UInt8) : Starts (t ++ r) := by
  obtain ⟨b, u, rfl, hb⟩ := h
  exact ⟨b, u ++ r, rfl, hb⟩

theorem Starts.not_closed (h : Starts t) : expect 93 t = none ∧ expect 125 t = none := by
  obtain ⟨b, u, rfl, hspace, hbracket, hbrace⟩ := h
  rw [expect_cons hspace, expect_cons hspace, if_neg hbracket, if_neg hbrace]
  exact ⟨rfl, rfl⟩

/-- No number begins with a space. -/
theorem not_isSpace_of_sign_or_digit (hb : isDigit b = true ∨ b = 45) : isSpace b = false := by
  rw [← Bool.not_eq_true]
  intro hspace
  simp only [isSpace, Bool.or_eq_true, decide_eq_true_eq] at hspace
  rcases hspace with ((rfl | rfl) | rfl) | rfl <;> rcases hb with hb | hb <;> cases hb

theorem starts_decimal (n : ℕ) : Starts (decimal n) := by
  obtain ⟨b, ds, hdecimal, hb, -⟩ := decimal_head n
  refine ⟨b, ds, hdecimal, not_isSpace_of_sign_or_digit (.inl hb), ?_, ?_⟩
  · rintro rfl
    cases hb
  · rintro rfl
    cases hb

theorem Spells.starts {p : Phrase} (h : Spells p t) : Starts t := by
  induction h with
  | natural n => exact starts_decimal n
  | lastItem h ih => exact ih.append _
  | item h hs ih => exact ih.append _
  | _ => exact ⟨_, _, rfl, rfl, by decide, by decide⟩

/-- The parser takes a text for the phrase that it spells, whatever comes after it. -/
def Phrase.Reads : Phrase → List UInt8 → Prop
  | .value v, t => ∀ ⦃n r⦄, t.length ≤ n → Stops r → Json.value n (t ++ r) = some (v, r)
  | .items vs, t => ∀ ⦃n r⦄, t.length ≤ n → Json.items n (t ++ r) = some (vs, r)
  | .members ms, t => ∀ ⦃n r⦄, t.length ≤ n → Json.members n (t ++ r) = some (ms, r)

theorem value_brace (n : ℕ) (bs : List UInt8) :
    value (n + 1) (123 :: bs) = match expect 125 bs with
      | some rest => some (.object [], rest)
      | none => (members n bs).map (Prod.map .object id) := by
  rw [value]
  rfl

theorem value_bracket (n : ℕ) (bs : List UInt8) :
    value (n + 1) (91 :: bs) = match expect 93 bs with
      | some rest => some (.array [], rest)
      | none => (items n bs).map (Prod.map .array id) := by
  rw [value]
  rfl

theorem value_quote (n : ℕ) (bs : List UInt8) :
    value (n + 1) (34 :: bs) = (string n bs).map (Prod.map .string id) := by
  rw [value]
  rfl

/-- No token but a number begins with a digit or a sign. -/
theorem value_number {q : ℚ} (hb : isDigit b = true ∨ b = 45)
    (h : number (b :: bs) = some (q, r)) (n : ℕ) :
    value (n + 1) (b :: bs) = some (.number q, r) := by
  have hother : ∀ c, isDigit c = false → c ≠ 45 → b ≠ c := by
    rintro c hc hsign rfl
    rcases hb with hb | hb
    · rw [hb] at hc
      cases hc
    · exact hsign hb
  have hspace : isSpace b = false := not_isSpace_of_sign_or_digit hb
  have hliteral : literal (b :: bs) = none := by
    unfold literal
    split
    · rename_i heq
      exact absurd (List.cons.inj heq).1 (hother 116 rfl (by decide))
    · rename_i heq
      exact absurd (List.cons.inj heq).1 (hother 102 rfl (by decide))
    · rename_i heq
      exact absurd (List.cons.inj heq).1 (hother 110 rfl (by decide))
    · rfl
  rw [value, expect_cons hspace, expect_cons hspace, expect_cons hspace,
    if_neg (hother 123 rfl (by decide)), if_neg (hother 91 rfl (by decide)),
    if_neg (hother 34 rfl (by decide))]
  dsimp only
  rw [List.dropWhile_cons_of_neg (by simp [hspace]), hliteral, h]
  rfl

theorem items_of_value (h : value n bs = some (v, r)) :
    items (n + 1) bs = match expect 44 r with
      | some rest => (items n rest).map (Prod.map (v :: ·) id)
      | none => (expect 93 r).map fun rest ↦ ([v], rest) := by
  rw [items, h]
  rfl

theorem members_of_value {k q : List UInt8} (hk : Quoted k q) (hn : q.length ≤ n)
    (h : value n bs = some (v, r)) :
    members (n + 1) (34 :: (q ++ 58 :: bs)) = match expect 44 r with
      | some rest => (members n rest).map (Prod.map ((k, v) :: ·) id)
      | none => (expect 125 r).map fun rest ↦ ([(k, v)], rest) := by
  rw [members, expect_cons rfl, if_pos rfl]
  change (do
    let (key, rest) ← string n (q ++ 58 :: bs)
    let rest ← expect 58 rest
    let (v, rest) ← value n rest
    match expect 44 rest with
    | some rest => (members n rest).map (Prod.map ((key, v) :: ·) id)
    | none => (expect 125 rest).map fun rest ↦ ([(key, v)], rest)) = _
  rw [string_quoted hk hn]
  change (do
    let (v, rest) ← value n bs
    match expect 44 rest with
    | some rest => (members n rest).map (Prod.map ((k, v) :: ·) id)
    | none => (expect 125 rest).map fun rest ↦ ([(k, v)], rest)) = _
  rw [h]
  rfl

theorem Spells.reads {p : Phrase} (h : Spells p t) : p.Reads t := by
  induction h with
  | noMembers | noItems | yes | no | null =>
      rintro (_ | n) r hn -
      · cases hn
      · rfl
  | @object ms t hms ih =>
      rintro (_ | n) r hn -
      · cases hn
      have hopen : expect 125 (t ++ r) = none := (hms.starts.append r).not_closed.2
      rw [List.cons_append, value_brace, hopen]
      dsimp only
      rw [ih (Nat.le_of_succ_le_succ hn)]
      rfl
  | @array vs t hvs ih =>
      rintro (_ | n) r hn -
      · cases hn
      have hopen : expect 93 (t ++ r) = none := (hvs.starts.append r).not_closed.1
      rw [List.cons_append, value_bracket, hopen]
      dsimp only
      rw [ih (Nat.le_of_succ_le_succ hn)]
      rfl
  | string hs =>
      rintro (_ | n) r hn -
      · cases hn
      rw [List.cons_append, value_quote, string_quoted hs (Nat.le_of_succ_le_succ hn)]
      rfl
  | natural m =>
      obtain ⟨b, ds, hdecimal, hb, -⟩ := decimal_head m
      rintro (_ | n) r hn hr
      · rw [hdecimal] at hn
        cases hn
      · have hnumber := number_natural m hr
        rw [hdecimal] at hnumber ⊢
        exact value_number (.inl hb) hnumber n
  | negative m =>
      rintro (_ | n) r hn hr
      · cases hn
      · exact value_number (.inr rfl) (number_negative m hr) n
  | @lastItem v t hv ih =>
      rintro (_ | n) r hn
      · simp at hn
      rw [List.length_append] at hn
      have hvalue : value n (t ++ 93 :: r) = some (v, 93 :: r) :=
        ih (Nat.le_of_succ_le_succ hn) (.cons (.inr (.inl rfl)) r)
      rw [List.append_assoc]
      refine (items_of_value hvalue).trans ?_
      rfl
  | @item v vs t u hv hvs ih ihs =>
      rintro (_ | n) r hn
      · simp at hn
      rw [List.length_append, List.length_cons] at hn
      have hvalue : value n (t ++ 44 :: (u ++ r)) = some (v, 44 :: (u ++ r)) :=
        ih (by omega) (.cons (.inl rfl) _)
      rw [List.append_assoc]
      refine (items_of_value hvalue).trans ?_
      change (items n (u ++ r)).map _ = _
      rw [ihs (by omega)]
      rfl
  | @lastMember k q v t hk hv ih =>
      rintro (_ | n) r hn
      · cases hn
      simp only [List.length_append, List.length_cons] at hn
      have hvalue : value n (t ++ 125 :: r) = some (v, 125 :: r) :=
        ih (by omega) (.cons (.inr (.inr rfl)) r)
      rw [List.cons_append, List.append_assoc, List.cons_append, List.append_assoc]
      refine (members_of_value hk (by omega) hvalue).trans ?_
      rfl
  | @member k q v ms t u hk hv hms ih ihs =>
      rintro (_ | n) r hn
      · cases hn
      simp only [List.length_append, List.length_cons] at hn
      have hvalue : value n (t ++ 44 :: (u ++ r)) = some (v, 44 :: (u ++ r)) :=
        ih (by omega) (.cons (.inl rfl) _)
      rw [List.cons_append, List.append_assoc, List.cons_append, List.append_assoc]
      refine (members_of_value hk (by omega) hvalue).trans ?_
      change (members n (u ++ r)).map _ = _
      rw [ihs (by omega)]
      rfl

/-- A compact text is parsed as the value that it spells. -/
theorem parse_of_spells (h : Spells (.value v) t) : parse t = some v := by
  have hreads := h.reads t.length.le_refl Stops.nil
  rw [List.append_nil] at hreads
  unfold parse
  rw [hreads]
  rfl

end Json
