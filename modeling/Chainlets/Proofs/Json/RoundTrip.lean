import Mathlib.Data.List.TakeWhile
import Chainlets.Json.Parser
import Chainlets.Proofs.Version.Spelling

/-!
# Printed values are read back

The compact text of a value is cut into the tokens of the value, and the machine that reads tokens
ends in the value. Both facts are proved of a value with anything around it: of a text, with more
text behind it; of tokens, with open arrays and objects in front and more tokens behind. The only
thing that must not stand behind a numeral is a byte that would go on with it, and punctuation
never does.

## Main definitions

* `Json.tokens` — the tokens of a value.
* `Json.Scans` — a text is cut into tokens, whatever stands behind it.
* `Json.Reads` — tokens lead from a state of the machine to another.

## Main results

* `Json.Token.content_units` — the escaped bytes of a string stand for its bytes.
* `Json.scans_render` — the text of a value is cut into the tokens of the value.
* `Json.reads_tokens` — the tokens of a value are read as the value.
* `Json.parse_render` — **printed values are read back.**
-/

namespace Chainlets.Json

open Token

/-! ### Strings -/

namespace Token

/-- A byte of a string is escaped with a character, or with its code if it is a control character,
or it stands for itself. -/
theorem escape_cases (b : UInt8) :
    (∃ e, escape b = [0x5C, e] ∧ e ≠ 0x75 ∧ escaped? e = some b) ∨
    (∃ high low, escape b = [0x5C, 0x75, 0x30, 0x30, high, low] ∧
      code? 0x30 0x30 high low = some b.toNat ∧ b.toNat < 0x20) ∨
    escape b = [b] ∧ b ≠ 0x22 ∧ b ≠ 0x5C ∧ ¬ b < 0x20 := by
  rw [escape]
  split
  next h => subst h; exact .inl ⟨_, rfl, by decide, by decide⟩
  split
  next h => subst h; exact .inl ⟨_, rfl, by decide, by decide⟩
  split
  next h => subst h; exact .inl ⟨_, rfl, by decide, by decide⟩
  split
  next h => subst h; exact .inl ⟨_, rfl, by decide, by decide⟩
  split
  next h => subst h; exact .inl ⟨_, rfl, by decide, by decide⟩
  split
  next h => subst h; exact .inl ⟨_, rfl, by decide, by decide⟩
  split
  next h => subst h; exact .inl ⟨_, rfl, by decide, by decide⟩
  split
  next hcontrol =>
    have hlt : b.toNat < 0x20 := UInt8.lt_iff_toNat_lt.1 hcontrol
    have hcode : ∀ n, n < 0x20 → code? 0x30 0x30 (UInt8.ofNat (Nat.digitChar (n / 16)).toNat)
        (UInt8.ofNat (Nat.digitChar (n % 16)).toNat) = some n := by decide
    exact .inr (.inl ⟨_, _, rfl, hcode b.toNat hlt, hlt⟩)
  next hplain =>
    rename_i hquote hbackslash _ _ _ _ _
    exact .inr (.inr ⟨rfl, hquote, hbackslash, hplain⟩)

/-- The unit that a byte of a string is written as. -/
def unit (b : UInt8) : Unit := if (escape b).length = 6 then .code b.toNat else .byte b

/-- The escaped form of one byte is read as the unit of the byte. -/
theorem units?_escape (b : UInt8) (rest : Bytes) :
    units? (escape b ++ rest) =
      (units? rest).map fun (units, width) => (unit b :: units, width + (escape b).length) := by
  rcases escape_cases b with ⟨e, he, hne, hb⟩ | ⟨high, low, he, hcode, -⟩ | ⟨he, h₁, h₂, h₃⟩
  · have hunit : unit b = .byte b := if_neg (by simp [he])
    rw [hunit, he]
    change units? (0x5C :: e :: rest) = _
    rw [units?.eq_def]
    cases hrest : units? rest <;> simp [hne, hb, hrest]
  · have hunit : unit b = .code b.toNat := if_pos (by simp [he])
    rw [hunit, he]
    change units? (0x5C :: 0x75 :: 0x30 :: 0x30 :: high :: low :: rest) = _
    rw [units?.eq_def]
    cases hrest : units? rest <;> simp [hcode, hrest]
  · have hunit : unit b = .byte b := if_neg (by simp [he])
    rw [hunit, he]
    change units? (b :: rest) = _
    rw [units?.eq_def]
    cases hrest : units? rest <;> simp [h₁, h₂, h₃, hrest]

theorem units?_flatMap (bytes rest : Bytes) :
    units? (bytes.flatMap escape ++ 0x22 :: rest) =
      some (bytes.map unit, (bytes.flatMap escape).length + 1) := by
  induction bytes with
  | nil =>
    change units? (0x22 :: rest) = _
    rw [units?.eq_def]
    rfl
  | cons b bytes ih =>
    rw [List.flatMap_cons, List.append_assoc, units?_escape, ih]
    simp only [Option.map_some, List.map_cons, List.length_append]
    congr 2
    omega

/-- A code that is no half of a surrogate pair stands for itself. -/
theorem content_code {n : Nat} (h : isHigh n = false) (rest : List Unit) :
    content (.code n :: rest) = codePoint n ++ content rest := by
  cases rest with
  | nil => rfl
  | cons unit rest =>
    cases unit with
    | byte b => rfl
    | code m => rw [content, h]; rfl

/-- **The escaped bytes of a string stand for its bytes.** -/
theorem content_units (bytes : Bytes) : content (bytes.map unit) = bytes := by
  induction bytes with
  | nil => rfl
  | cons b bytes ih =>
    rw [List.map_cons, unit]
    split
    next hcode =>
      rcases escape_cases b with ⟨e, he, -⟩ | ⟨high, low, he, -, hlt⟩ | ⟨he, -⟩
      · rw [he] at hcode
        cases hcode
      · have hhigh : isHigh b.toNat = false := by
          rw [isHigh, decide_eq_false (by omega), Bool.false_and]
        rw [content_code hhigh, ih, codePoint, if_pos (by omega), UInt8.ofNat_toNat]
        rfl
      · rw [he] at hcode
        cases hcode
    next => rw [content, ih]

end Token

/-! ### Numerals -/

namespace Token

/-- The byte of a digit is a digit, and stands for it. -/
theorem isDigit_byte {c : Char} (h : c.isDigit = true) :
    isDigit (UInt8.ofNat c.toNat) = true ∧ Char.ofNat (UInt8.ofNat c.toNat).toNat = c := by
  have hrange : 48 ≤ c.toNat ∧ c.toNat ≤ 57 := by
    rw [Char.isDigit, Bool.and_eq_true, decide_eq_true_eq, decide_eq_true_eq] at h
    exact ⟨UInt32.le_iff_toNat_le.1 h.1, UInt32.le_iff_toNat_le.1 h.2⟩
  have hbyte : (UInt8.ofNat c.toNat).toNat = c.toNat := by
    rw [UInt8.toNat_ofNat']
    exact Nat.mod_eq_of_lt (by omega)
  constructor
  · rw [isDigit, Bool.and_eq_true, decide_eq_true_eq, decide_eq_true_eq, UInt8.le_iff_toNat_le,
      UInt8.le_iff_toNat_le, hbyte]
    exact hrange
  · rw [hbyte, Char.ofNat_toNat]

/-- The digits of a number, as bytes. -/
def numeral (n : Nat) : Bytes := (Decimal.digits n).map fun c => UInt8.ofNat c.toNat

theorem isDigit_of_mem_numeral {n : Nat} {b : UInt8} (h : b ∈ numeral n) : isDigit b = true := by
  obtain ⟨c, hc, rfl⟩ := List.mem_map.1 h
  exact (isDigit_byte (Decimal.isDigit_of_mem_digits hc)).1

theorem ne_of_isDigit {b k : UInt8} (h : isDigit b = true) (hk : isDigit k = false) : b ≠ k := by
  rintro rfl
  rw [h] at hk
  cases hk

theorem value_numeral (n : Nat) :
    Decimal.value ((numeral n).map fun b => Char.ofNat b.toNat) = n := by
  have hchars : (numeral n).map (fun b => Char.ofNat b.toNat) = Decimal.digits n := by
    rw [numeral, List.map_map]
    exact (List.map_congr_left fun c hc =>
      (isDigit_byte (Decimal.isDigit_of_mem_digits hc)).2).trans (List.map_id _)
  rw [hchars, Decimal.value_digits]

theorem isWhole_numeral (n : Nat) : isWhole (numeral n) = true := by
  have hall : (numeral n).all isDigit = true := List.all_eq_true.2 fun b => isDigit_of_mem_numeral
  cases hdigits : Decimal.digits n with
  | nil => exact absurd hdigits (Decimal.digits_ne_nil n)
  | cons c rest =>
    have hcons : numeral n =
        UInt8.ofNat c.toNat :: rest.map fun c => UInt8.ofNat c.toNat := by
      rw [numeral, hdigits, List.map_cons]
    have hc : c.isDigit = true :=
      Decimal.isDigit_of_mem_digits (hdigits ▸ List.mem_cons_self)
    rw [isWhole, isDigits, hall, hcons]
    cases rest with
    | nil => simp
    | cons d rest =>
      have hlead : UInt8.ofNat c.toNat ≠ 0x30 := by
        intro hzero
        have hchar := (isDigit_byte hc).2
        rw [hzero] at hchar
        rw [← hchar] at hdigits
        exact Decimal.digits_ne_zero_cons n d rest hdigits
      simp [hlead]

/-- **The digits of a number are its numeral.** -/
theorem numeral?_numeral (n : Nat) : numeral? (numeral n) = some (.natural n) := by
  have htake : (numeral n).takeWhile isDigit = numeral n :=
    List.takeWhile_eq_self_iff.2 fun b => isDigit_of_mem_numeral
  have hdrop : (numeral n).dropWhile isDigit = [] :=
    List.dropWhile_eq_nil_iff.2 fun b => isDigit_of_mem_numeral
  have hunsigned : unsigned? (numeral n) = some (.natural n) := by
    rw [unsigned?, htake, hdrop, value_numeral]
    exact if_pos (isWhole_numeral n)
  cases hcons : numeral n with
  | nil => rw [hcons] at hunsigned; cases hunsigned
  | cons b rest =>
    have hb : isDigit b = true := isDigit_of_mem_numeral (hcons ▸ List.mem_cons_self)
    rw [numeral?, if_neg (ne_of_isDigit hb (by decide)), ← hcons, hunsigned]

theorem lexeme?_digit {b : UInt8} (h : isDigit b = true) (rest : Bytes) :
    lexeme? b rest = (numeral? (b :: rest.takeWhile isNumeralByte)).map fun token =>
      (token, (rest.takeWhile isNumeralByte).length) := by
  have hne {k : UInt8} (hk : isDigit k = false) : b ≠ k := ne_of_isDigit h hk
  rw [lexeme?, if_neg (hne (by decide)), if_neg (hne (by decide)), if_neg (hne (by decide)),
    if_neg (hne (by decide)), if_neg (hne (by decide)), if_neg (hne (by decide)),
    if_neg (hne (by decide)), if_neg (hne (by decide)), if_neg (hne (by decide)),
    if_neg (hne (by decide))]

end Token

/-! ### Texts -/

/-- A text does not go on with a numeral that stands before it. -/
def Ends (text : Bytes) : Prop := text.takeWhile isNumeralByte = []

theorem ends_cons {b : UInt8} (h : isNumeralByte b = false) (text : Bytes) : Ends (b :: text) :=
  List.takeWhile_cons_of_neg (by simp [h])

/-- A text is cut into tokens, whatever stands behind it, as long as that ends a numeral. -/
def Scans (text : Bytes) (tokens : List Token) : Prop :=
  ∀ rest, Ends rest → scanFrom 0 (text ++ rest) = (scanFrom 0 rest).map (tokens ++ ·)

theorem scanFrom_length (front rest : Bytes) :
    scanFrom front.length (front ++ rest) = scanFrom 0 rest := by
  induction front with
  | nil => rfl
  | cons b front ih => simpa [scanFrom] using ih

/-- A text that begins with a token. -/
theorem scanFrom_lexeme {b : UInt8} {f rest : Bytes} {token : Token}
    (hspace : isSpace b = false) (h : lexeme? b (f ++ rest) = some (token, f.length)) :
    scanFrom 0 (b :: f ++ rest) = (scanFrom 0 rest).map (token :: ·) := by
  rw [List.cons_append, scanFrom, hspace, h]
  change (scanFrom f.length (f ++ rest)).bind _ = _
  rw [scanFrom_length, Option.map_eq_bind]
  rfl

namespace Scans

variable {text text' : Bytes} {tokens tokens' : List Token}

theorem nil : Scans [] [] := fun rest _ => by simp

theorem append (h : Scans text tokens) (h' : Scans text' tokens')
    (hends : ∀ rest, Ends rest → Ends (text' ++ rest)) :
    Scans (text ++ text') (tokens ++ tokens') := by
  intro rest hrest
  rw [List.append_assoc, h _ (hends rest hrest), h' _ hrest, Option.map_map]
  simp [Function.comp_def]

/-- One token, with a byte in front that tells its kind. -/
theorem lexeme {b : UInt8} {front : Bytes} {token : Token} (hspace : isSpace b = false)
    (h : ∀ rest, Ends rest → lexeme? b (front ++ rest) = some (token, front.length)) :
    Scans (b :: front) [token] :=
  fun rest hrest => scanFrom_lexeme hspace (h rest hrest)

/-- Punctuation. -/
theorem cons {b : UInt8} {token : Token} (h : Scans text tokens) (hspace : isSpace b = false)
    (hmark : ∀ rest, lexeme? b rest = some (token, 0)) :
    Scans (b :: text) (token :: tokens) := by
  intro rest hrest
  have hfirst : scanFrom 0 (b :: (text ++ rest)) = (scanFrom 0 (text ++ rest)).map (token :: ·) :=
    scanFrom_lexeme (f := []) hspace (hmark (text ++ rest))
  rw [List.cons_append, hfirst, h rest hrest, Option.map_map]
  rfl

theorem quote (content : Bytes) : Scans (Json.quote content) [.string content] := by
  refine lexeme (by decide) fun rest _ => ?_
  change (units? (content.flatMap escape ++ [0x22] ++ rest)).map _ = _
  rw [List.append_assoc, List.singleton_append, units?_flatMap]
  have hlength : (content.flatMap escape).length + 1 =
      (content.flatMap escape ++ [0x22]).length := by simp
  rw [hlength]
  change some (Token.string (Token.content (content.map unit)), _) = _
  rw [content_units]
  rfl

theorem numeral (n : Nat) : Scans (Token.numeral n) [.natural n] := by
  have hnumeral := numeral?_numeral n
  cases hcons : Token.numeral n with
  | nil => rw [hcons] at hnumeral; cases hnumeral
  | cons b front =>
    have hall {d : UInt8} (hd : d ∈ b :: front) : isDigit d = true :=
      isDigit_of_mem_numeral (hcons ▸ hd)
    have hb : isDigit b = true := hall List.mem_cons_self
    have hspace : isSpace b = false := by
      simp [isSpace, ne_of_isDigit hb (show isDigit 0x20 = false by decide),
        ne_of_isDigit hb (show isDigit 0x09 = false by decide),
        ne_of_isDigit hb (show isDigit 0x0A = false by decide),
        ne_of_isDigit hb (show isDigit 0x0D = false by decide)]
    refine lexeme hspace fun rest hrest => ?_
    have htake : (front ++ rest).takeWhile isNumeralByte = front := by
      have hfront : ∀ d ∈ front, isNumeralByte d = true := fun d hd => by
        simp [isNumeralByte, hall (List.mem_cons_of_mem b hd)]
      rw [List.takeWhile_append_of_pos hfront, show rest.takeWhile isNumeralByte = [] from hrest,
        List.append_nil]
    rw [lexeme?_digit hb, htake, ← hcons, hnumeral]
    rfl

/-- The number whose value is not kept. -/
theorem minusZero : Scans [0x2D, 0x30] [.otherNumber] := by
  refine lexeme (by decide) fun rest hrest => ?_
  have htake : (0x30 :: rest).takeWhile isNumeralByte = [0x30] := by
    rw [List.takeWhile_cons_of_pos (by decide), show rest.takeWhile isNumeralByte = [] from hrest]
  have hunfold : lexeme? 0x2D (0x30 :: rest) =
      (numeral? (0x2D :: (0x30 :: rest).takeWhile isNumeralByte)).map fun token =>
        (token, ((0x30 :: rest).takeWhile isNumeralByte).length) := rfl
  rw [List.singleton_append, hunfold, htake]
  decide

theorem word {b : UInt8} {s : String} {token : Token} (hspace : isSpace b = false)
    (hlength : (ascii s).length = s.length)
    (h : ∀ rest, lexeme? b rest = word? s token rest) :
    Scans (b :: ascii s) [token] := by
  refine lexeme hspace fun rest _ => ?_
  rw [h, word?, if_pos (List.isPrefixOf_iff_prefix.2 (List.prefix_append ..)), hlength]

end Scans

/-! ### Tokens of values -/

mutual

/-- The tokens of a value. -/
def tokens : Json → List Token
  | .null => [.null]
  | .bool b => [.bool b]
  | .natural n => [.natural n]
  | .otherNumber => [.otherNumber]
  | .string content => [.string content]
  | .array [] => [.openArray, .closeArray]
  | .array (item :: items) => .openArray :: tokens item ++ itemTokens items ++ [.closeArray]
  | .object [] => [.openObject, .closeObject]
  | .object ((key, value) :: fields) =>
    .openObject :: [.string key] ++ .colon :: tokens value ++ fieldTokens fields ++ [.closeObject]

/-- The tokens of the items after the first one. -/
def itemTokens : List Json → List Token
  | [] => []
  | item :: items => .comma :: tokens item ++ itemTokens items

/-- The tokens of the fields after the first one. -/
def fieldTokens : List (Bytes × Json) → List Token
  | [] => []
  | (key, value) :: fields =>
    .comma :: [.string key] ++ .colon :: tokens value ++ fieldTokens fields

end

theorem ends_renderItems (items : List Json) {rest : Bytes} (h : Ends rest) :
    Ends (renderItems items ++ rest) := by
  cases items with
  | nil => exact h
  | cons item items => exact ends_cons (by decide) _

theorem ends_renderFields (fields : List (Bytes × Json)) {rest : Bytes} (h : Ends rest) :
    Ends (renderFields fields ++ rest) := by
  cases fields with
  | nil => exact h
  | cons field fields => exact ends_cons (by decide) _

mutual

/-- **The text of a value is cut into the tokens of the value.** -/
theorem scans_render : (j : Json) → Scans j.render j.tokens
  | .null => Scans.word (b := 0x6E) (s := "ull") (by decide) (by decide) fun _ => rfl
  | .bool true => Scans.word (b := 0x74) (s := "rue") (by decide) (by decide) fun _ => rfl
  | .bool false => Scans.word (b := 0x66) (s := "alse") (by decide) (by decide) fun _ => rfl
  | .natural n => .numeral n
  | .otherNumber => .minusZero
  | .string content => .quote content
  | .array [] => .cons (.cons .nil (by decide) fun _ => rfl) (by decide) fun _ => rfl
  | .array (item :: items) => by
    have hclose : Scans [0x5D] [.closeArray] := .cons .nil (by decide) fun _ => rfl
    have hopen : Scans (0x5B :: render item) (.openArray :: tokens item) :=
      .cons (scans_render item) (by decide) fun _ => rfl
    have hitems := hopen.append (scans_renderItems items) fun _ => ends_renderItems items
    exact hitems.append hclose fun _ _ => ends_cons (by decide) _
  | .object [] => .cons (.cons .nil (by decide) fun _ => rfl) (by decide) fun _ => rfl
  | .object ((key, value) :: fields) => by
    have hclose : Scans [0x7D] [.closeObject] := .cons .nil (by decide) fun _ => rfl
    have hkey : Scans (0x7B :: quote key) (.openObject :: [.string key]) :=
      .cons (.quote key) (by decide) fun _ => rfl
    have hvalue : Scans (0x3A :: render value) (.colon :: tokens value) :=
      .cons (scans_render value) (by decide) fun _ => rfl
    have hfirst := hkey.append hvalue fun _ _ => ends_cons (by decide) _
    have hfields := hfirst.append (scans_renderFields fields) fun _ => ends_renderFields fields
    exact hfields.append hclose fun _ _ => ends_cons (by decide) _

theorem scans_renderItems : (items : List Json) → Scans (renderItems items) (itemTokens items)
  | [] => .nil
  | item :: items => by
    have hcomma : Scans (0x2C :: render item) (.comma :: tokens item) :=
      .cons (scans_render item) (by decide) fun _ => rfl
    exact hcomma.append (scans_renderItems items) fun _ => ends_renderItems items

theorem scans_renderFields :
    (fields : List (Bytes × Json)) → Scans (renderFields fields) (fieldTokens fields)
  | [] => .nil
  | (key, value) :: fields => by
    have hkey : Scans (0x2C :: quote key) (.comma :: [.string key]) :=
      .cons (.quote key) (by decide) fun _ => rfl
    have hvalue : Scans (0x3A :: render value) (.colon :: tokens value) :=
      .cons (scans_render value) (by decide) fun _ => rfl
    have hfirst := hkey.append hvalue fun _ _ => ends_cons (by decide) _
    exact hfirst.append (scans_renderFields fields) fun _ => ends_renderFields fields

end

/-! ### Reading tokens -/

/-- A list of tokens leads from a state of the machine to another. -/
def Reads (tokens : List Token) (r r' : Reading) : Prop := tokens.foldlM Reading.step r = some r'

namespace Reads

variable {tokens tokens' : List Token} {r r' r'' : Reading}

theorem append (h : Reads tokens r r') (h' : Reads tokens' r' r'') :
    Reads (tokens ++ tokens') r r'' := by
  rw [Reads, List.foldlM_append, show tokens.foldlM Reading.step r = some r' from h]
  exact h'

theorem cons {token : Token} (hstep : r.step token = some r') (h : Reads tokens r' r'') :
    Reads (token :: tokens) r r'' := by
  rw [Reads, List.foldlM_cons, hstep]
  exact h

end Reads

/-- In an array that has no items yet, the tokens of a value are read as its first item. -/
theorem reads_firstItem {j : Json} {stack : List Frame} {r : Reading}
    (h : Reads j.tokens (.valueDue (.array [] :: stack)) r) :
    Reads j.tokens (.firstItem stack) r := by
  cases j with
  | array items => cases items <;> exact h
  | object fields =>
    cases fields with
    | nil => exact h
    | cons field fields => exact h
  | _ => exact h

mutual

/-- **The tokens of a value are read as the value**, inside whatever is open. -/
theorem reads_tokens (stack : List Frame) : (j : Json) →
    Reads j.tokens (.valueDue stack) (.supply j stack)
  | .null => rfl
  | .bool _ => rfl
  | .natural _ => rfl
  | .otherNumber => rfl
  | .string _ => rfl
  | .array [] => rfl
  | .array (item :: items) => by
    have hitem : Reads item.tokens (.firstItem stack) (.afterItem [item] stack) :=
      reads_firstItem (reads_tokens (.array [] :: stack) item)
    have hopen : Reads (.openArray :: item.tokens) (.valueDue stack) (.afterItem [item] stack) :=
      .cons rfl hitem
    have hclose : Reads [.closeArray] (.afterItem (items.reverse ++ [item]) stack)
        (.supply (.array (items.reverse ++ [item]).reverse) stack) := rfl
    have hall := (hopen.append (reads_itemTokens [item] stack items)).append hclose
    rwa [List.reverse_append, List.reverse_reverse, List.reverse_singleton,
      List.singleton_append] at hall
  | .object [] => rfl
  | .object ((key, value) :: fields) => by
    have hvalue : Reads (.colon :: value.tokens) (.colonDue [] key stack)
        (.afterField [(key, value)] stack) :=
      .cons rfl (reads_tokens (.object [] key :: stack) value)
    have hkey : Reads (.openObject :: [.string key]) (.valueDue stack)
        (.colonDue [] key stack) := rfl
    have hfirst := hkey.append hvalue
    have hclose : Reads [.closeObject] (.afterField (fields.reverse ++ [(key, value)]) stack)
        (.supply (.object (fields.reverse ++ [(key, value)]).reverse) stack) := rfl
    have hall := (hfirst.append (reads_fieldTokens [(key, value)] stack fields)).append hclose
    rwa [List.reverse_append, List.reverse_reverse, List.reverse_singleton,
      List.singleton_append] at hall

theorem reads_itemTokens (done : List Json) (stack : List Frame) : (items : List Json) →
    Reads (itemTokens items) (.afterItem done stack) (.afterItem (items.reverse ++ done) stack)
  | [] => rfl
  | item :: items => by
    have hcomma : Reads (.comma :: item.tokens) (.afterItem done stack)
        (.afterItem (item :: done) stack) := .cons rfl (reads_tokens (.array done :: stack) item)
    have hall := hcomma.append (reads_itemTokens (item :: done) stack items)
    rw [List.reverse_cons, List.append_assoc]
    exact hall

theorem reads_fieldTokens (done : List (Bytes × Json)) (stack : List Frame) :
    (fields : List (Bytes × Json)) → Reads (fieldTokens fields) (.afterField done stack)
      (.afterField (fields.reverse ++ done) stack)
  | [] => rfl
  | (key, value) :: fields => by
    have hvalue : Reads (.colon :: value.tokens) (.colonDue done key stack)
        (.afterField ((key, value) :: done) stack) :=
      .cons rfl (reads_tokens (.object done key :: stack) value)
    have hkey : Reads (.comma :: [.string key]) (.afterField done stack)
        (.colonDue done key stack) := rfl
    have hfirst := hkey.append hvalue
    have hall := hfirst.append (reads_fieldTokens ((key, value) :: done) stack fields)
    rw [List.reverse_cons, List.append_assoc]
    exact hall

end

/-- **Printed values are read back.** -/
@[simp]
theorem parse_render (j : Json) : parse j.render = some j := by
  have hscan := scans_render j [] rfl
  have hreads : j.tokens.foldlM Reading.step (.valueDue []) = some (.supply j []) :=
    reads_tokens [] j
  rw [List.append_nil] at hscan
  rw [parse, scan, hscan]
  simp only [scanFrom, Option.map_some, Option.bind_some, List.append_nil, ofTokens?, hreads]
  rfl

end Chainlets.Json
