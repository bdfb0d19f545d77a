import BufferFabric.Codec
import BufferFabric.Lib.Json

/-!
# The JSON writer

`json.hpp` and `json.cpp`. Every append is held against a budget. One flag, shared by all levels,
says whether a comma comes before the next token.
-/

namespace BufferFabric

open Json (Value Spells)

structure JsonWriter where
  out : Bytes := []
  budget : ℕ
  truncated : Bool := false
  needComma : Bool := false
  inObject : List Bool := []

def JsonWriter.ofBudget (byteBudget : ℕ) : JsonWriter := { budget := byteBudget }

/-- A number below 65536 as `%04x` prints it. -/
def hexQuad (n : ℕ) : Bytes :=
  [Json.hexChar (n / 4096), Json.hexChar (n / 256 % 16), Json.hexChar (n / 16 % 16),
    Json.hexChar (n % 16)]

/-- A byte as `append_escaped` writes it. -/
def escapedByte (c : UInt8) : Bytes :=
  if c = 34 then [92, 34]
  else if c = 92 then [92, 92]
  else if c = 10 then [92, 110]
  else if c = 13 then [92, 114]
  else if c = 9 then [92, 116]
  else if c < 32 then 92 :: 117 :: hexQuad c.toNat
  else [c]

def appendEscaped (out text : Bytes) : Bytes := out ++ 34 :: (text.flatMap escapedByte ++ [34])

/-- `%llu`. -/
def printUnsigned (v : UInt64) : Bytes := Json.decimal v.toNat

/-- `%lld`. -/
def printSigned (v : Int64) : Bytes :=
  if v.toInt < 0 then 45 :: Json.decimal v.toInt.natAbs else Json.decimal v.toInt.natAbs

namespace JsonWriter

def kMarker : Bytes := "\"__truncated__\":true".toUTF8.toList

mutual

def push (w : JsonWriter) (text : Bytes) : JsonWriter :=
  if w.truncated then w
  else if w.budget < w.out.length + text.length then
    let w := { w with truncated := true }
    if w.out.length + kMarker.length ≤ w.budget then
      let w := w.comma
      { w with out := w.out ++ kMarker }
    else w
  else { w with out := w.out ++ text }
  termination_by if w.truncated then 0 else 2
  decreasing_by simp_all

def comma (w : JsonWriter) : JsonWriter :=
  let w := if w.needComma then w.push [44] else w
  { w with needComma := false }
  termination_by if w.truncated then 1 else 3
  decreasing_by split <;> decide

end

def beginObject (w : JsonWriter) : JsonWriter :=
  let w := w.comma.push [123]
  { w with inObject := true :: w.inObject, needComma := false }

def endObject (w : JsonWriter) : JsonWriter :=
  let w := w.push [125]
  { w with inObject := w.inObject.tail, needComma := true }

def beginArray (w : JsonWriter) : JsonWriter :=
  let w := w.comma.push [91]
  { w with inObject := false :: w.inObject, needComma := false }

def endArray (w : JsonWriter) : JsonWriter :=
  let w := w.push [93]
  { w with inObject := w.inObject.tail, needComma := true }

def key (w : JsonWriter) (name : Bytes) : JsonWriter :=
  (w.comma.push (appendEscaped [] name)).push [58]

def valueString (w : JsonWriter) (text : Bytes) : JsonWriter :=
  { w.comma.push (appendEscaped [] text) with needComma := true }

def valueU64 (w : JsonWriter) (value : UInt64) : JsonWriter :=
  { w.comma.push (printUnsigned value) with needComma := true }

def valueI64 (w : JsonWriter) (value : Int64) : JsonWriter :=
  { w.comma.push (printSigned value) with needComma := true }

def valueBool (w : JsonWriter) (value : Bool) : JsonWriter :=
  { w.comma.push (if value then "true" else "false").toUTF8.toList with needComma := true }

def valueNull (w : JsonWriter) : JsonWriter :=
  { w.comma.push "null".toUTF8.toList with needComma := true }

def raw (w : JsonWriter) (text : Bytes) : JsonWriter :=
  { w.comma.push text with needComma := true }

end JsonWriter

inductive WriterCall where
  | beginObject
  | endObject
  | beginArray
  | endArray
  | key (name : Bytes)
  | valueString (text : Bytes)
  | valueU64 (value : UInt64)
  | valueI64 (value : Int64)
  | valueBool (value : Bool)
  | valueNull
  | raw (text : Bytes)

namespace JsonWriter

def call (w : JsonWriter) : WriterCall → JsonWriter
  | .beginObject => w.beginObject
  | .endObject => w.endObject
  | .beginArray => w.beginArray
  | .endArray => w.endArray
  | .key name => w.key name
  | .valueString text => w.valueString text
  | .valueU64 value => w.valueU64 value
  | .valueI64 value => w.valueI64 value
  | .valueBool value => w.valueBool value
  | .valueNull => w.valueNull
  | .raw text => w.raw text

def run (w : JsonWriter) (calls : List WriterCall) : JsonWriter := calls.foldl call w

variable {w : JsonWriter} {text : Bytes}

theorem push_of_truncated (h : w.truncated = true) (text : Bytes) : w.push text = w := by
  rw [push, if_pos h]

theorem comma_of_truncated (h : w.truncated = true) : w.comma = { w with needComma := false } := by
  rw [comma, push_of_truncated h, ite_self]

/-- What is appended in full. -/
theorem push_of_fits (h : w.truncated = false) (hfits : w.out.length + text.length ≤ w.budget) :
    w.push text = { w with out := w.out ++ text } := by
  rw [push, if_neg (by simp [h]), if_neg (Nat.not_lt.mpr hfits)]

/-- What is not: the marker comes in its place, if there is room for it. -/
theorem push_of_not_fits (h : w.truncated = false)
    (hfits : w.budget < w.out.length + text.length) :
    w.push text =
      if w.out.length + kMarker.length ≤ w.budget then
        { w with out := w.out ++ kMarker, truncated := true, needComma := false }
      else { w with truncated := true } := by
  rw [push, if_neg (by simp [h]), if_pos hfits]
  dsimp only
  rw [comma_of_truncated rfl]

/-! ### The budget -/

structure Keeps (w w' : JsonWriter) : Prop where
  budget : w'.budget = w.budget
  bounded : w.out.length ≤ w.budget → w'.out.length ≤ w.budget

theorem Keeps.refl (w : JsonWriter) : Keeps w w := ⟨rfl, id⟩

theorem Keeps.trans {w₁ w₂ w₃ : JsonWriter} (h : Keeps w₁ w₂) (h' : Keeps w₂ w₃) :
    Keeps w₁ w₃ := by
  refine ⟨h'.budget.trans h.budget, fun hw ↦ ?_⟩
  have hlast := h'.bounded (h.budget.symm ▸ h.bounded hw)
  rwa [h.budget] at hlast

theorem push_keeps (w : JsonWriter) (text : Bytes) : Keeps w (w.push text) := by
  by_cases htruncated : w.truncated = true
  · rw [push_of_truncated htruncated]
    exact .refl w
  rw [Bool.not_eq_true] at htruncated
  by_cases hfits : w.out.length + text.length ≤ w.budget
  · rw [push_of_fits htruncated hfits]
    exact ⟨rfl, fun _ ↦ by simpa using hfits⟩
  · rw [push_of_not_fits htruncated (Nat.not_le.mp hfits)]
    split
    · rename_i hmarker
      exact ⟨rfl, fun _ ↦ by simpa using hmarker⟩
    · exact ⟨rfl, id⟩

theorem comma_keeps (w : JsonWriter) : Keeps w w.comma := by
  rw [comma]
  split
  · have hpush := push_keeps w [44]
    exact ⟨hpush.budget, hpush.bounded⟩
  · exact ⟨rfl, id⟩

theorem call_keeps (w : JsonWriter) (c : WriterCall) : Keeps w (w.call c) := by
  have htoken : ∀ text, Keeps w (w.comma.push text) := fun text ↦
    (comma_keeps w).trans (push_keeps _ text)
  cases c with
  | endObject => exact ⟨(push_keeps w [125]).budget, (push_keeps w [125]).bounded⟩
  | endArray => exact ⟨(push_keeps w [93]).budget, (push_keeps w [93]).bounded⟩
  | key name => exact (htoken _).trans (push_keeps _ [58])
  | _ => exact ⟨(htoken _).budget, (htoken _).bounded⟩

theorem run_keeps (w : JsonWriter) (calls : List WriterCall) : Keeps w (w.run calls) := by
  induction calls generalizing w with
  | nil => exact .refl w
  | cons c calls ih => exact (call_keeps w c).trans (ih (w.call c))

end JsonWriter

/-! ### The text of the calls -/

namespace WriterCall

def token : WriterCall → Bytes
  | .beginObject => [123]
  | .endObject => [125]
  | .beginArray => [91]
  | .endArray => [93]
  | .key name => appendEscaped [] name ++ [58]
  | .valueString text => appendEscaped [] text
  | .valueU64 value => printUnsigned value
  | .valueI64 value => printSigned value
  | .valueBool value => (if value then "true" else "false").toUTF8.toList
  | .valueNull => "null".toUTF8.toList
  | .raw text => text

def separates : WriterCall → Bool
  | .beginObject | .beginArray | .key _ => false
  | _ => true

def separated : WriterCall → Bool
  | .endObject | .endArray => false
  | _ => true

def text (needComma : Bool) (c : WriterCall) : Bytes :=
  if needComma && c.separated then 44 :: c.token else c.token

def texts : Bool → List WriterCall → Bytes
  | _, [] => []
  | needComma, c :: calls => c.text needComma ++ texts c.separates calls

end WriterCall

namespace JsonWriter

open WriterCall (texts)

variable {w : JsonWriter} {text : Bytes}

/-- A writer that is not truncated after an append has made it in full. -/
theorem push_of_kept (h : (w.push text).truncated = false) :
    w.truncated = false ∧ w.push text = { w with out := w.out ++ text } := by
  by_cases htruncated : w.truncated = true
  · rw [push_of_truncated htruncated, htruncated] at h
    cases h
  rw [Bool.not_eq_true] at htruncated
  by_cases hfits : w.out.length + text.length ≤ w.budget
  · exact ⟨htruncated, push_of_fits htruncated hfits⟩
  · rw [push_of_not_fits htruncated (Nat.not_le.mp hfits)] at h
    split at h <;> cases h

/-- The same with the comma before it. -/
theorem comma_push_of_kept (h : (w.comma.push text).truncated = false) :
    w.truncated = false ∧
      w.comma.push text =
        { w with
          out := w.out ++ if w.needComma then 44 :: text else text
          needComma := false } := by
  obtain ⟨hcomma, hpush⟩ := push_of_kept h
  rw [hpush]
  rw [comma] at hcomma ⊢
  by_cases hflag : w.needComma = true
  · simp only [if_pos hflag] at hcomma ⊢
    obtain ⟨htruncated, hseparator⟩ := push_of_kept hcomma
    rw [hseparator]
    exact ⟨htruncated, by simp⟩
  · simp only [if_neg hflag] at hcomma ⊢
    exact ⟨hcomma, trivial⟩

structure Wrote (w : JsonWriter) (c : WriterCall) (w' : JsonWriter) : Prop where
  untruncated : w.truncated = false
  out : w'.out = w.out ++ c.text w.needComma
  needComma : w'.needComma = c.separates

theorem call_of_kept {c : WriterCall} (h : (w.call c).truncated = false) :
    w.Wrote c (w.call c) := by
  cases c with
  | endObject | endArray =>
      obtain ⟨huntruncated, hpush⟩ := push_of_kept h
      refine ⟨huntruncated, ?_, rfl⟩
      simp only [WriterCall.text, WriterCall.separated, Bool.and_false]
      exact congrArg out hpush
  | key name =>
      obtain ⟨htoken, hcolon⟩ := push_of_kept h
      obtain ⟨huntruncated, hpush⟩ := comma_push_of_kept htoken
      refine ⟨huntruncated, ?_, ?_⟩
      · refine (congrArg out hcolon).trans ?_
        rw [hpush]
        cases hflag : w.needComma <;> simp [WriterCall.text, WriterCall.separated, WriterCall.token]
      · refine (congrArg needComma hcolon).trans ?_
        rw [hpush]
        rfl
  | _ =>
      obtain ⟨huntruncated, hpush⟩ := comma_push_of_kept h
      refine ⟨huntruncated, (congrArg out hpush).trans ?_, rfl⟩
      simp only [WriterCall.text, WriterCall.separated, Bool.and_true]
      rfl

theorem run_of_kept {calls : List WriterCall} (h : (w.run calls).truncated = false) :
    w.truncated = false ∧ (w.run calls).out = w.out ++ texts w.needComma calls := by
  induction calls generalizing w with
  | nil => exact ⟨h, (List.append_nil _).symm⟩
  | cons c calls ih =>
      obtain ⟨hcall, hout⟩ := ih h
      have hwrote := call_of_kept hcall
      refine ⟨hwrote.untruncated, hout.trans ?_⟩
      rw [hwrote.out, hwrote.needComma, List.append_assoc]
      rfl

/-- The comma and the token are appended in full if there is room for both. -/
theorem comma_push_of_fits (h : w.truncated = false)
    (hfits : w.out.length + (if w.needComma then 44 :: text else text).length ≤ w.budget) :
    (w.comma.push text).truncated = false := by
  rw [comma]
  by_cases hflag : w.needComma = true
  · simp only [if_pos hflag, List.length_cons] at hfits ⊢
    rw [push_of_fits h (by rw [List.length_singleton]; omega), push_of_fits]
    · exact h
    · exact h
    · simp only [List.length_append, List.length_singleton]
      omega
  · simp only [if_neg hflag] at hfits ⊢
    rw [push_of_fits]
    · exact h
    · exact h
    · exact hfits

theorem call_of_fits {c : WriterCall} (h : w.truncated = false)
    (hfits : w.out.length + (c.text w.needComma).length ≤ w.budget) :
    (w.call c).truncated = false := by
  cases c with
  | endObject | endArray =>
      simp only [WriterCall.text, WriterCall.separated, Bool.and_false] at hfits
      exact (congrArg truncated (push_of_fits h hfits)).trans h
  | key name =>
      have hfits' : w.out.length + (if w.needComma then 44 :: appendEscaped [] name
          else appendEscaped [] name).length + 1 ≤ w.budget := by
        refine Nat.le_trans (Nat.le_of_eq ?_) hfits
        cases hflag : w.needComma <;>
          simp [WriterCall.text, WriterCall.separated, WriterCall.token] <;> omega
      have htoken := comma_push_of_fits h (Nat.le_of_succ_le hfits')
      have hout := (comma_push_of_kept htoken).2
      refine (congrArg truncated (push_of_fits htoken ?_)).trans htoken
      rw [hout]
      simpa [Nat.add_assoc] using hfits'
  | _ =>
      simp only [WriterCall.text, WriterCall.separated, Bool.and_true] at hfits
      exact comma_push_of_fits h hfits

theorem run_of_fits {calls : List WriterCall} (h : w.truncated = false)
    (hfits : w.out.length + (texts w.needComma calls).length ≤ w.budget) :
    (w.run calls).truncated = false := by
  induction calls generalizing w with
  | nil => exact h
  | cons c calls ih =>
      rw [texts, List.length_append] at hfits
      have hcall := call_of_fits (c := c) h (by omega)
      have hwrote := call_of_kept hcall
      refine ih hcall ?_
      rw [hwrote.out, hwrote.needComma, (call_keeps w c).budget, List.length_append]
      omega

/-- The output is cut exactly if the text of the calls is longer than the budget. -/
theorem truncated_iff (budget : ℕ) (calls : List WriterCall) :
    ((ofBudget budget).run calls).truncated = false ↔ (texts false calls).length ≤ budget := by
  constructor
  · intro h
    have hbounded := (run_keeps (ofBudget budget) calls).bounded (Nat.zero_le budget)
    rwa [(run_of_kept h).2] at hbounded
  · intro h
    refine run_of_fits rfl ?_
    rwa [ofBudget, List.length_nil, Nat.zero_add]

end JsonWriter

/-! ### Trees -/

/-- A tree that can be emitted. An integer is emitted as signed or as unsigned. -/
inductive Doc where
  | object (members : List (Bytes × Doc))
  | array (items : List Doc)
  | string (text : Bytes)
  | unsigned (value : UInt64)
  | signed (value : Int64)
  | boolean (value : Bool)
  | null

mutual

def Doc.calls : Doc → List WriterCall
  | .object members => .beginObject :: (memberCalls members ++ [.endObject])
  | .array items => .beginArray :: (itemCalls items ++ [.endArray])
  | .string text => [.valueString text]
  | .unsigned value => [.valueU64 value]
  | .signed value => [.valueI64 value]
  | .boolean value => [.valueBool value]
  | .null => [.valueNull]

def itemCalls : List Doc → List WriterCall
  | [] => []
  | d :: items => d.calls ++ itemCalls items

def memberCalls : List (Bytes × Doc) → List WriterCall
  | [] => []
  | (name, d) :: members => .key name :: (d.calls ++ memberCalls members)

end

mutual

def Doc.value : Doc → Value
  | .object members => .object (memberValues members)
  | .array items => .array (itemValues items)
  | .string text => .string text
  | .unsigned value => .number value.toNat
  | .signed value => .number value.toInt
  | .boolean value => .boolean value
  | .null => .null

def itemValues : List Doc → List Value
  | [] => []
  | d :: items => d.value :: itemValues items

def memberValues : List (Bytes × Doc) → List (Bytes × Value)
  | [] => []
  | (name, d) :: members => (name, d.value) :: memberValues members

end

/-- Induction over a tree, through the lists of its members and items. -/
@[elab_as_elim]
theorem Doc.induct {motive : Doc → Prop}
    (object : ∀ members : List (Bytes × Doc), (∀ m ∈ members, motive m.2) →
      motive (.object members))
    (array : ∀ items : List Doc, (∀ d ∈ items, motive d) → motive (.array items))
    (string : ∀ text, motive (.string text)) (unsigned : ∀ value, motive (.unsigned value))
    (signed : ∀ value, motive (.signed value)) (boolean : ∀ value, motive (.boolean value))
    (null : motive .null) (d : Doc) : motive d := by
  refine @Doc.rec motive (fun members ↦ ∀ m ∈ members, motive m.2)
    (fun items ↦ ∀ d ∈ items, motive d) (fun m ↦ motive m.2) object array string unsigned signed
    boolean null ?_ ?_ ?_ ?_ ?_ d
  · rintro _ ⟨⟩
  · intro m members hm hmembers
    exact List.forall_mem_cons.mpr ⟨hm, hmembers⟩
  · rintro _ ⟨⟩
  · intro d items hd hitems
    exact List.forall_mem_cons.mpr ⟨hd, hitems⟩
  · intro name d hd
    exact hd

/-! ### Tokens are JSON -/

theorem escapedByte_escape (c : UInt8) : Json.Escape c (escapedByte c) := by
  unfold escapedByte
  split_ifs with hquote hslash hnewline hreturn htab hcontrol
  · rw [hquote]
    exact .short rfl
  · rw [hslash]
    exact .short rfl
  · rw [hnewline]
    exact .short rfl
  · rw [hreturn]
    exact .short rfl
  · rw [htab]
    exact .short rfl
  · have hlt : c.toNat < 32 := UInt8.lt_iff_toNat_lt.mp hcontrol
    have hquad : hexQuad c.toNat =
        [48, 48, Json.hexChar (c.toNat / 16), Json.hexChar (c.toNat % 16)] := by
      unfold hexQuad
      rw [Nat.div_eq_of_lt (by omega : c.toNat < 4096), Nat.div_eq_of_lt (by omega : c.toNat < 256),
        Nat.mod_eq_of_lt (by omega : c.toNat / 16 < 16)]
      rfl
    rw [hquad]
    exact .code (by omega)
  · exact .plain (UInt8.not_lt.mp hcontrol) hquote hslash

theorem quoted_escaped (text : Bytes) :
    Json.Quoted text (text.flatMap escapedByte ++ [34]) := by
  induction text with
  | nil => exact .done
  | cons c text ih =>
      rw [List.flatMap_cons, List.append_assoc]
      exact .cons (escapedByte_escape c) ih

theorem printSigned_spells (v : Int64) :
    Spells (.value (.number v.toInt)) (printSigned v) := by
  unfold printSigned
  split
  · rename_i hneg
    have habs : (v.toInt : ℚ) = -(v.toInt.natAbs : ℚ) := by
      rw [← Int.cast_natCast, Int.ofNat_natAbs_of_nonpos (Int.le_of_lt hneg), Int.cast_neg, neg_neg]
    rw [habs]
    exact .negative _
  · rename_i hpos
    have habs : (v.toInt : ℚ) = (v.toInt.natAbs : ℚ) := by
      rw [← Int.cast_natCast, Int.natAbs_of_nonneg (Int.not_lt.mp hpos)]
    rw [habs]
    exact .natural _

/-! ### Trees are read back -/

open WriterCall (texts)

/-- The calls append a compact text of the phrase, after a comma if there is one to come. -/
def Emits (calls : List WriterCall) (p : Json.Phrase) : Prop :=
  ∃ t, Spells p t ∧ ∀ needComma rest, texts needComma (calls ++ rest) =
    (if needComma then 44 :: t else t) ++ texts true rest

variable {calls calls' : List WriterCall} {v : Value} {name : Bytes}

theorem Emits.token {c : WriterCall} (hseparated : c.separated = true)
    (hseparates : c.separates = true) (h : Spells (.value v) c.token) : Emits [c] (.value v) := by
  refine ⟨c.token, h, fun needComma rest ↦ ?_⟩
  change c.text needComma ++ texts c.separates rest = _
  rw [WriterCall.text, hseparated, Bool.and_true, hseparates]

theorem Emits.object {members : List (Bytes × Value)} (h : Emits calls (.members members)) :
    Emits (.beginObject :: calls) (.value (.object members)) := by
  obtain ⟨t, ht, htext⟩ := h
  refine ⟨123 :: t, .object ht, fun needComma rest ↦ ?_⟩
  change WriterCall.beginObject.text needComma ++ texts false (calls ++ rest) = _
  rw [htext]
  cases needComma <;> rfl

theorem Emits.array {items : List Value} (h : Emits calls (.items items)) :
    Emits (.beginArray :: calls) (.value (.array items)) := by
  obtain ⟨t, ht, htext⟩ := h
  refine ⟨91 :: t, .array ht, fun needComma rest ↦ ?_⟩
  change WriterCall.beginArray.text needComma ++ texts false (calls ++ rest) = _
  rw [htext]
  cases needComma <;> rfl

theorem Emits.lastItem (h : Emits calls (.value v)) :
    Emits (calls ++ [.endArray]) (.items [v]) := by
  obtain ⟨t, ht, htext⟩ := h
  refine ⟨t ++ [93], .lastItem ht, fun needComma rest ↦ ?_⟩
  rw [List.append_assoc, htext]
  change _ ++ 93 :: texts true rest = _
  cases needComma <;> simp

theorem Emits.item {items : List Value} (h : Emits calls (.value v))
    (hs : Emits calls' (.items items)) : Emits (calls ++ calls') (.items (v :: items)) := by
  obtain ⟨t, ht, htext⟩ := h
  obtain ⟨u, hu, hutext⟩ := hs
  refine ⟨t ++ 44 :: u, .item ht hu, fun needComma rest ↦ ?_⟩
  rw [List.append_assoc, htext, hutext]
  cases needComma <;> simp

theorem Emits.lastMember (h : Emits calls (.value v)) :
    Emits (.key name :: (calls ++ [.endObject])) (.members [(name, v)]) := by
  obtain ⟨t, ht, htext⟩ := h
  refine ⟨_, .lastMember (quoted_escaped name) ht, fun needComma rest ↦ ?_⟩
  change WriterCall.text needComma (.key name) ++ texts false ((calls ++ [.endObject]) ++ rest) = _
  rw [List.append_assoc, htext]
  change _ ++ (t ++ 125 :: texts true rest) = _
  cases needComma <;> simp [WriterCall.text, WriterCall.token, WriterCall.separated, appendEscaped]

theorem Emits.member {members : List (Bytes × Value)} (h : Emits calls (.value v))
    (hs : Emits calls' (.members members)) :
    Emits (.key name :: (calls ++ calls')) (.members ((name, v) :: members)) := by
  obtain ⟨t, ht, htext⟩ := h
  obtain ⟨u, hu, hutext⟩ := hs
  refine ⟨_, .member (quoted_escaped name) ht hu, fun needComma rest ↦ ?_⟩
  change WriterCall.text needComma (.key name) ++ texts false ((calls ++ calls') ++ rest) = _
  rw [List.append_assoc, htext, hutext]
  cases needComma <;> simp [WriterCall.text, WriterCall.token, WriterCall.separated, appendEscaped]

theorem emits_items {items : List Doc} (hne : items ≠ [])
    (h : ∀ d ∈ items, Emits d.calls (.value d.value)) :
    Emits (itemCalls items ++ [.endArray]) (.items (itemValues items)) := by
  induction items with
  | nil => exact absurd rfl hne
  | cons d items ih =>
      obtain ⟨hd, hitems⟩ := List.forall_mem_cons.mp h
      cases items with
      | nil =>
          simp only [itemCalls, itemValues, List.append_nil]
          exact hd.lastItem
      | cons d' items =>
          rw [itemCalls, itemValues, List.append_assoc]
          exact hd.item (ih (List.cons_ne_nil _ _) hitems)

theorem emits_members {members : List (Bytes × Doc)} (hne : members ≠ [])
    (h : ∀ m ∈ members, Emits m.2.calls (.value m.2.value)) :
    Emits (memberCalls members ++ [.endObject]) (.members (memberValues members)) := by
  induction members with
  | nil => exact absurd rfl hne
  | cons m members ih =>
      obtain ⟨hm, hmembers⟩ := List.forall_mem_cons.mp h
      obtain ⟨name, d⟩ := m
      cases members with
      | nil =>
          simp only [memberCalls, memberValues, List.append_nil]
          exact hm.lastMember
      | cons m' members =>
          rw [memberCalls, memberValues, List.cons_append, List.append_assoc]
          exact hm.member (ih (List.cons_ne_nil _ _) hmembers)

/-- A tree is emitted as a text of itself. -/
theorem Doc.emits (d : Doc) : Emits d.calls (.value d.value) := by
  induction d using Doc.induct with
  | object members ih =>
      rw [Doc.calls, Doc.value]
      cases members with
      | nil => exact ⟨[123, 125], .noMembers, fun needComma rest ↦ by cases needComma <;> rfl⟩
      | cons m members => exact (emits_members (List.cons_ne_nil m members) ih).object
  | array items ih =>
      rw [Doc.calls, Doc.value]
      cases items with
      | nil => exact ⟨[91, 93], .noItems, fun needComma rest ↦ by cases needComma <;> rfl⟩
      | cons d items => exact (emits_items (List.cons_ne_nil d items) ih).array
  | string text => exact .token rfl rfl (.string (quoted_escaped text))
  | unsigned value => exact .token rfl rfl (.natural value.toNat)
  | signed value => exact .token rfl rfl (printSigned_spells value)
  | boolean value =>
      have hyes : "true".toUTF8.toList = [116, 114, 117, 101] := by decide +kernel
      have hno : "false".toUTF8.toList = [102, 97, 108, 115, 101] := by decide +kernel
      refine .token rfl rfl ?_
      cases value with
      | true =>
          change Spells _ "true".toUTF8.toList
          rw [hyes]
          exact .yes
      | false =>
          change Spells _ "false".toUTF8.toList
          rw [hno]
          exact .no
  | null =>
      have hnull : "null".toUTF8.toList = [110, 117, 108, 108] := by decide +kernel
      refine .token rfl rfl ?_
      change Spells _ "null".toUTF8.toList
      rw [hnull]
      exact .null

/-- No call appends more than the budget allows. A tree whose text was not cut is read back. -/
theorem writer_bounded_and_valid (budget : ℕ) :
    (∀ calls, ((JsonWriter.ofBudget budget).run calls).out.length ≤ budget) ∧
      ∀ d : Doc, ((JsonWriter.ofBudget budget).run d.calls).truncated = false →
        Json.parse ((JsonWriter.ofBudget budget).run d.calls).out = some d.value := by
  refine ⟨fun calls ↦ (JsonWriter.run_keeps _ calls).bounded (Nat.zero_le budget), fun d h ↦ ?_⟩
  obtain ⟨t, ht, htext⟩ := d.emits
  have hout := (JsonWriter.run_of_kept h).2
  have hwhole : texts false d.calls = t := by simpa [texts] using htext false []
  rw [hout]
  change Json.parse (texts false d.calls) = _
  rw [hwhole]
  exact Json.parse_of_spells ht

def smallDoc : Doc :=
  .object [([97], .array [.unsigned 18446744073709551615, .signed (-2), .boolean true, .null]),
    ([34, 10, 200], .object []), ([], .array [.string [92, 1], .array []])]

theorem writer_small :
    Json.parse ((JsonWriter.ofBudget 100).run smallDoc.calls).out = some smallDoc.value :=
  (writer_bounded_and_valid 100).2 smallDoc
    ((JsonWriter.truncated_iff 100 smallDoc.calls).mpr (by decide +kernel))

end BufferFabric
