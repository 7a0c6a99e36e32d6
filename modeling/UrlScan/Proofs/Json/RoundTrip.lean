import Mathlib.Data.List.Nodup
import UrlScan.Proofs.Json.Reader
import UrlScan.Proofs.Json.Writing
import UrlScan.Proofs.Text.LowerCase

/-!
# What is written as JSON is read back

Reading the text that a JSON value is written as yields this value again (`read?_text`), whatever
strings, numbers and containers it has, as long as no object has two members of the same name.

The proof follows the value. A reader that has a value before it stops right behind it, whatever
follows; only behind a number the text must not go on like the number. In a container a comma, a
line end or nothing at all follows, so this holds everywhere.

Results:
1. `string?_escape`: strings, character by character.
2. `number?_decimal`: whole numbers.
3. `items?_rendered`: items with commas between them, one on a line.
4. `value?_textAt`, `read?_text`: any value.
-/

namespace UrlScan

namespace JsonValue

/-- What a value stands for. -/
def datum : JsonValue → JsonDatum
  | number n => .integer n
  | string t => .string t
  | array elements => .array (elements.map datum)
  | object members => .object (members.map fun member => (member.1, member.2.datum))
decreasing_by
  · next present =>
      have smaller := List.sizeOf_lt_of_mem present
      simp only [array.sizeOf_spec]
      omega
  · next present =>
      have smaller := List.sizeOf_lt_of_mem present
      obtain ⟨name, value⟩ := member
      simp only [Prod.mk.sizeOf_spec] at smaller
      simp only [object.sizeOf_spec]
      omega

/-- No object in a value has two members of the same name. -/
inductive NamesDiffer : JsonValue → Prop
  | number (n : Int) : NamesDiffer (.number n)
  | string (t : Text) : NamesDiffer (.string t)
  | array {elements : List JsonValue} :
      (∀ element ∈ elements, NamesDiffer element) → NamesDiffer (.array elements)
  | object {members : List (Text × JsonValue)} :
      (members.map (·.1)).Nodup → (∀ member ∈ members, NamesDiffer member.2) →
      NamesDiffer (.object members)

end JsonValue

namespace JsonDatum

open JsonValue

/-! ## Strings -/

section
variable {c : Char} {rest : Text}

theorem string?_plain (notQuote : c ≠ Text.doubleQuote) (notBackslash : c ≠ '\\')
    (noControl : ¬c.toNat < 0x20) : string? (c :: rest) = (string? rest).map (prepend c) := by
  rw [string?, if_neg notQuote, if_neg notBackslash, if_neg noControl]

theorem string?_backslash {t : Text} {width : Nat} (stands : escape? t = some (c, width)) :
    string? ('\\' :: t) = (string? (t.drop width)).map (prepend c) := by
  have backslash : '\\' ≠ Text.doubleQuote := by decide
  rw [string?, if_neg backslash, if_pos rfl, stands]
  rfl

theorem string?_letter {letter : Char} (notUnit : letter ≠ 'u')
    (stands : escapes.lookup letter = some c) :
    string? ('\\' :: letter :: rest) = (string? rest).map (prepend c) := by
  have escaped : escape? (letter :: rest) = some (c, 1) := by
    rw [escape?, if_neg notUnit, stands]
    rfl
  exact string?_backslash escaped

/-- The code unit of a control character is written with four digits that stand for it. -/
theorem escape?_hexDigits {n : Nat} (control : n < 0x20) (rest : Text) :
    escape? ('u' :: Text.hexDigits 4 n ++ rest) = some (Char.ofNat n, 5) ∧
      (Text.hexDigits 4 n).length = 4 := by
  have units : ∀ n < 0x20, codeUnit? (Text.hexDigits 4 n) = some n := by decide
  have isUnit : codeUnit? (Text.hexDigits 4 n ++ rest) = some n := units n control
  have notHigh : ¬(0xD800 ≤ n ∧ n < 0xDC00) := by omega
  have notLow : ¬(0xDC00 ≤ n ∧ n < 0xE000) := by omega
  refine ⟨?_, rfl⟩
  rw [List.cons_append, escape?, if_pos rfl, isUnit]
  dsimp only
  rw [if_neg notHigh, if_neg notLow]

/-- A character is written as a pair of a backslash and a letter, as its code unit or as itself. -/
theorem escapeChar_cases (c : Char) :
    (∃ letter, escapeChar c = ['\\', letter] ∧ letter ≠ 'u' ∧ escapes.lookup letter = some c) ∨
    (c.toNat < 0x20 ∧ escapeChar c = '\\' :: 'u' :: Text.hexDigits 4 c.toNat) ∨
    (c ≠ Text.doubleQuote ∧ c ≠ '\\' ∧ ¬c.toNat < 0x20 ∧ escapeChar c = [c]) := by
  by_cases paired : c ∈ [Text.doubleQuote, '\\', '\n', '\r', '\t', '\x08', '\x0C']
  · left
    simp only [List.mem_cons, List.not_mem_nil, or_false] at paired
    rcases paired with rfl | rfl | rfl | rfl | rfl | rfl | rfl <;>
      exact ⟨_, rfl, by decide, rfl⟩
  · right
    simp only [List.mem_cons, List.not_mem_nil, or_false, not_or] at paired
    obtain ⟨quote, backslash, newLine, carriageReturn, tab, backspace, formFeed⟩ := paired
    have written : escapeChar c =
        if c.toNat < 0x20 then '\\' :: 'u' :: Text.hexDigits 4 c.toNat else [c] := by
      simp [escapeChar, quote, backslash, newLine, carriageReturn, tab, backspace, formFeed]
    rw [written]
    by_cases control : c.toNat < 0x20
    · exact .inl ⟨control, if_pos control⟩
    · exact .inr ⟨quote, backslash, control, if_neg control⟩

theorem string?_escape (c : Char) (rest : Text) :
    string? (escapeChar c ++ rest) = (string? rest).map (prepend c) := by
  rcases escapeChar_cases c with ⟨letter, written, notUnit, stands⟩ | ⟨control, written⟩ |
    ⟨notQuote, notBackslash, noControl, written⟩
  · rw [written]
    exact string?_letter notUnit stands
  · obtain ⟨stands, four⟩ := escape?_hexDigits control rest
    rw [Char.ofNat_toNat] at stands
    rw [written]
    show string? ('\\' :: ('u' :: Text.hexDigits 4 c.toNat ++ rest)) = _
    rw [string?_backslash stands, List.cons_append, List.drop_succ_cons, List.drop_left' four]
  · rw [written]
    exact string?_plain notQuote notBackslash noControl

theorem string?_renderString (t rest : Text) :
    string? (t.flatMap escapeChar ++ Text.doubleQuote :: rest) = some (t, rest) := by
  induction t with
  | nil =>
    rw [List.flatMap_nil, List.nil_append, string?, if_pos rfl]
  | cons c t ih =>
    rw [List.flatMap_cons, List.append_assoc, string?_escape, ih]
    rfl

end

/-! ## Numbers -/

/-- A text that does not go on like a number. -/
def EndsNumber (rest : Text) : Prop :=
  ∀ c, rest.head? = some c → c.isDigit = false ∧ c ≠ '.' ∧ c ≠ 'e' ∧ c ≠ 'E'

section
variable {rest : Text} (ends : EndsNumber rest)
include ends

theorem digits?_append {digits : Text} (notEmpty : digits ≠ [])
    (allDigits : ∀ c ∈ digits, c.isDigit = true) :
    digits? (digits ++ rest) = some (digits, rest) := by
  have stops : rest.takeWhile Char.isDigit = [] ∧ rest.dropWhile Char.isDigit = rest := by
    cases rest with
    | nil => exact ⟨rfl, rfl⟩
    | cons c rest =>
      have noDigit : ¬c.isDigit = true := Bool.eq_false_iff.mp (ends c rfl).1
      rw [List.takeWhile_cons_of_neg noDigit, List.dropWhile_cons_of_neg noDigit]
      exact ⟨rfl, rfl⟩
  rw [digits?, List.takeWhile_append_of_pos allDigits, List.dropWhile_append_of_pos allDigits,
    stops.1, stops.2, List.append_nil]
  split
  next => exact absurd rfl notEmpty
  next => rfl

theorem fraction?_eq : fraction? rest = some ([], rest) := by
  cases rest with
  | nil => rfl
  | cons c rest => rw [fraction?, if_neg (ends c rfl).2.1]

theorem exponent?_eq : exponent? rest = some (none, rest) := by
  cases rest with
  | nil => rfl
  | cons c rest =>
    have noMark : ¬(c = 'e' || c = 'E') = true := by
      simp [(ends c rfl).2.2.1, (ends c rfl).2.2.2]
    rw [exponent?, if_neg noMark]

theorem wholeDigits?_append {digits : Text} (notEmpty : digits ≠ [])
    (allDigits : ∀ c ∈ digits, c.isDigit = true)
    (first : digits.head? = some '0' → digits = ['0']) :
    wholeDigits? (digits ++ rest) = some (digits, rest) := by
  obtain ⟨c, others, rfl⟩ := List.exists_cons_of_ne_nil notEmpty
  rw [List.cons_append, wholeDigits?]
  split
  next zero =>
    subst zero
    cases first rfl
    rfl
  next => exact digits?_append ends notEmpty allDigits

end

/-- A whole number is written without a zero at its beginning, but for zero itself. -/
theorem head?_toDigits (n : Nat) :
    (Nat.toDigits 10 n).head? = some '0' → Nat.toDigits 10 n = ['0'] := by
  induction n using Nat.strongRecOn with
  | ind n ih =>
    intro zero
    have base : 1 < 10 := by decide
    rcases Nat.lt_or_ge n 10 with small | large
    · rw [Nat.toDigits_of_lt_base small] at zero ⊢
      rw [Option.some.inj zero]
    · rw [Nat.toDigits_of_base_le base large] at zero ⊢
      rw [List.head?_append_of_ne_nil _ Nat.toDigits_ne_nil] at zero
      -- The digits of the quotient would be a zero alone, but the quotient is not zero.
      have isZero := ih (n / 10) (by omega) zero
      have value := Nat.ofDigitChars_ten_toDigits (n := n / 10)
      rw [isZero] at value
      have quotient : 0 = n / 10 := value
      omega

theorem decimal_ofNat (n : Nat) : Text.decimal n = Nat.toDigits 10 n := by
  show (toString n).toList = _
  rw [Nat.toString_eq_ofList_toDigits, String.toList_ofList]

theorem decimal_negSucc (n : Nat) : Text.decimal (.negSucc n) = '-' :: Nat.toDigits 10 (n + 1) := by
  show ("-" ++ toString (n + 1)).toList = _
  rw [Nat.toString_eq_ofList_toDigits, String.toList_append, String.toList_ofList,
    String.toList_ofList]
  rfl

theorem unsigned?_toDigits (negative : Bool) (n : Nat) {rest : Text} (ends : EndsNumber rest) :
    unsigned? negative (Nat.toDigits 10 n ++ rest) = some (.integer (signed negative n), rest) := by
  have allDigits : ∀ c ∈ Nat.toDigits 10 n, c.isDigit = true :=
    fun c member => Nat.isDigit_of_mem_toDigits (by decide) (by decide) member
  have whole := wholeDigits?_append ends Nat.toDigits_ne_nil allDigits (head?_toDigits n)
  rw [unsigned?, whole]
  dsimp only
  rw [fraction?_eq ends]
  dsimp only
  rw [exponent?_eq ends]
  dsimp only
  rw [List.append_nil, Nat.ofDigitChars_ten_toDigits]

/-- A whole number is read back from the text that it is written as. -/
theorem number?_decimal (n : Int) {rest : Text} (ends : EndsNumber rest) :
    number? (Text.decimal n ++ rest) = some (.integer n, rest) := by
  cases n with
  | ofNat n =>
    have noSign : (Text.decimal n ++ rest).head? ≠ some '-' := by
      rw [decimal_ofNat, List.head?_append_of_ne_nil _ Nat.toDigits_ne_nil]
      intro sign
      have isDigit := Nat.isDigit_of_mem_toDigits (by decide) (by decide) (List.mem_of_head? sign)
      exact absurd isDigit (by decide)
    show number? (Text.decimal n ++ rest) = _
    rw [number?, if_neg noSign, decimal_ofNat, unsigned?_toDigits false n ends]
    rfl
  | negSucc n =>
    rw [decimal_negSucc, number?]
    show unsigned? true (Nat.toDigits 10 (n + 1) ++ rest) = _
    rw [unsigned?_toDigits true (n + 1) ends]
    rfl

/-! ## Items on lines -/

theorem skipBlanks_newLine (depth : Nat) (t : Text) :
    skipBlanks (newLine depth ++ t) = skipBlanks t := by
  refine List.dropWhile_append_of_pos fun c member => ?_
  rcases List.mem_cons.mp member with rfl | blank
  · rfl
  · rw [List.eq_of_mem_replicate blank]
    rfl

theorem skipBlanks_cons {c : Char} (notBlank : isBlank c = false) (t : Text) :
    skipBlanks (c :: t) = c :: t :=
  List.dropWhile_cons_of_neg (Bool.eq_false_iff.mp notBlank)

/-- Items behind the first one, each behind a comma on a line of its own. -/
def furtherItems {β : Type} (depth : Nat) (text : β → Text) (items : List β) : Text :=
  items.flatMap fun item => ',' :: newLine depth ++ text item

theorem textOfElements_eq (depth : Nat) (elements : List JsonValue) :
    textOfElements depth elements = furtherItems depth (textAt depth) elements := by
  induction elements with
  | nil => rfl
  | cons element rest ih =>
    rw [textOfElements, ih]
    simp only [furtherItems, List.flatMap_cons, List.append_assoc]

/-- A member as it is written. -/
def memberText (depth : Nat) (member : Text × JsonValue) : Text :=
  renderString member.1 ++ [':', ' '] ++ textAt depth member.2

theorem textOfMembers_eq (depth : Nat) (members : List (Text × JsonValue)) :
    textOfMembers depth members = furtherItems depth (memberText depth) members := by
  induction members with
  | nil => rfl
  | cons member rest ih =>
    rw [textOfMembers, ih]
    simp only [furtherItems, memberText, List.flatMap_cons, List.cons_append, List.append_assoc]

section
variable {α : Type} {closing : Char} {item? : Text → Option (α × Text)} {limit : Nat}
  {item : α} {t after rest : Text}

theorem items?_last (read : item? t = some (item, after))
    (closes : skipBlanks after = closing :: rest) :
    items? closing item? (limit + 1) t = some ([item], rest) := by
  rw [items?, read]
  dsimp only
  rw [closes]
  exact if_pos rfl

theorem items?_more (notComma : ',' ≠ closing) {others : List α} {behind : Text}
    (read : item? t = some (item, after)) (goesOn : skipBlanks after = ',' :: rest)
    (readOthers : items? closing item? limit rest = some (others, behind)) :
    items? closing item? (limit + 1) t = some (item :: others, behind) := by
  rw [items?, read]
  dsimp only
  rw [goesOn]
  dsimp only
  rw [if_neg notComma, if_pos rfl, readOthers]
  rfl

theorem items?_newLine {depth : Nat} (skips : ∀ t, item? (newLine depth ++ t) = item? t)
    (limit : Nat) (t : Text) :
    items? closing item? limit (newLine depth ++ t) = items? closing item? limit t := by
  cases limit with
  | zero => rfl
  | succ limit => rw [items?, skips, items?]

end

section
variable {α β : Type} {depth : Nat} {text : β → Text}

theorem furtherItems_cons (item : β) (items : List β) :
    furtherItems depth text (item :: items) =
      ',' :: (newLine depth ++ (text item ++ furtherItems depth text items)) := by
  rw [furtherItems, List.flatMap_cons, List.cons_append, List.cons_append, List.append_assoc,
    furtherItems]

/-- What follows an item does not go on like a number: a comma, or the line of the closing
bracket. -/
theorem endsNumber_furtherItems (depth : Nat) (text : β → Text) (items : List β) (outer : Nat)
    (rest : Text) : EndsNumber (furtherItems depth text items ++ (newLine outer ++ rest)) := by
  intro c first
  cases items with
  | nil =>
    cases first
    decide
  | cons item items =>
    cases first
    decide

/-- Items are read back if each of them is, whatever comes behind it that does not go on like a
number. -/
theorem items?_rendered {closing : Char} (notBlank : isBlank closing = false)
    (notComma : ',' ≠ closing) {item? : Text → Option (α × Text)}
    (skips : ∀ t, item? (newLine depth ++ t) = item? t) {read : β → α} {items : List β} {item : β}
    (reads : ∀ b ∈ item :: items, ∀ rest, EndsNumber rest →
      item? (text b ++ rest) = some (read b, rest))
    {limit : Nat} (enough : items.length < limit) (outer : Nat) (rest : Text) :
    items? closing item? limit
        (text item ++ (furtherItems depth text items ++ (newLine outer ++ closing :: rest))) =
      some ((item :: items).map read, rest) := by
  have closes : skipBlanks (newLine outer ++ closing :: rest) = closing :: rest := by
    rw [skipBlanks_newLine, skipBlanks_cons notBlank]
  induction items generalizing item limit with
  | nil =>
    obtain ⟨limit, rfl⟩ := Nat.exists_eq_succ_of_ne_zero (Nat.ne_of_gt enough)
    have ends := endsNumber_furtherItems depth text [] outer (closing :: rest)
    exact items?_last (reads item List.mem_cons_self _ ends) closes
  | cons next items ih =>
    obtain ⟨limit, rfl⟩ := Nat.exists_eq_succ_of_ne_zero (Nat.ne_of_gt (Nat.zero_lt_of_lt enough))
    have ends := endsNumber_furtherItems depth text (next :: items) outer (closing :: rest)
    have first := reads item List.mem_cons_self _ ends
    have others := ih (fun b member => reads b (List.mem_cons_of_mem item member))
      (Nat.lt_of_succ_lt_succ enough)
    rw [furtherItems_cons, List.cons_append] at first ⊢
    refine items?_more notComma first (skipBlanks_cons (by decide) _) ?_
    rw [List.append_assoc, items?_newLine skips, List.append_assoc]
    exact others

/-- The same with the brackets: behind the opening one is a line end, or the closing one. -/
theorem between?_rendered {closing : Char} (notBlank : isBlank closing = false)
    (notComma : ',' ≠ closing) {item? : Text → Option (α × Text)}
    (skips : ∀ t, item? (newLine depth ++ t) = item? t) {read : β → α} {items : List β} {item : β}
    (begins : ∃ c more, text item = c :: more ∧ isBlank c = false ∧ c ≠ closing)
    (reads : ∀ b ∈ item :: items, ∀ rest, EndsNumber rest →
      item? (text b ++ rest) = some (read b, rest))
    {limit : Nat} (enough : items.length < limit) (outer : Nat) (rest : Text) :
    between? closing item? limit (newLine depth ++ (text item ++
        (furtherItems depth text items ++ (newLine outer ++ closing :: rest)))) =
      some ((item :: items).map read, rest) := by
  obtain ⟨c, more, whole, noBlank, notClosing⟩ := begins
  have isRead := items?_rendered notBlank notComma skips reads enough outer rest
  rw [between?, skipBlanks_newLine]
  rw [whole, List.cons_append] at isRead ⊢
  rw [skipBlanks_cons noBlank]
  dsimp only
  rw [if_neg notClosing]
  exact isRead

/-- The items are no more than the characters that they are written with, and none of them is
longer than all of them together. -/
theorem length_furtherItems (depth : Nat) (text : β → Text) (items : List β) :
    items.length ≤ (furtherItems depth text items).length ∧
      ∀ item ∈ items, (text item).length ≤ (furtherItems depth text items).length := by
  induction items with
  | nil => exact ⟨Nat.le_refl _, fun _ member => absurd member List.not_mem_nil⟩
  | cons item items ih =>
    rw [furtherItems_cons]
    simp only [List.length_cons, List.length_append, List.forall_mem_cons]
    refine ⟨by omega, by omega, fun other member => ?_⟩
    have shorter := ih.2 other member
    omega

end

/-! ## Members -/

theorem setMember_of_absent {members : List (Text × JsonDatum)} {member : Text × JsonDatum}
    (absent : member.1 ∉ members.map (·.1)) : setMember members member = members ++ [member] := by
  induction members with
  | nil => rfl
  | cons other rest ih =>
    rw [List.map_cons, List.mem_cons, not_or] at absent
    rw [setMember, if_neg (Ne.symm absent.1), ih absent.2, List.cons_append]

/-- Members of different names are kept as they are. -/
theorem foldl_setMember {before members : List (Text × JsonDatum)}
    (differ : ((before ++ members).map (·.1)).Nodup) :
    members.foldl setMember before = before ++ members := by
  induction members generalizing before with
  | nil => rw [List.foldl_nil, List.append_nil]
  | cons member rest ih =>
    rw [List.append_cons] at differ
    have absent : member.1 ∉ before.map (·.1) := by
      rw [List.map_append, List.nodup_append, List.map_append, List.nodup_append] at differ
      intro present
      exact differ.1.2.2 _ present _ List.mem_cons_self rfl
    rw [List.foldl_cons, setMember_of_absent absent, ih differ, ← List.append_cons]

theorem member?_newLine (read : Text → Option (JsonDatum × Text)) (depth : Nat) (t : Text) :
    member? read (newLine depth ++ t) = member? read t := by
  rw [member?, skipBlanks_newLine, member?]

theorem member?_memberText {read : Text → Option (JsonDatum × Text)} {depth : Nat} {name : Text}
    {v : JsonValue} {datum : JsonDatum} {rest : Text}
    (skips : ∀ t, read (' ' :: t) = read t)
    (isRead : read (textAt depth v ++ rest) = some (datum, rest)) :
    member? read (memberText depth (name, v) ++ rest) = some ((name, datum), rest) := by
  have whole : memberText depth (name, v) ++ rest =
      Text.doubleQuote :: (name.flatMap escapeChar ++
        Text.doubleQuote :: ':' :: ' ' :: (textAt depth v ++ rest)) := by
    simp only [memberText, renderString, List.cons_append, List.append_assoc, List.nil_append]
  rw [whole, member?, skipBlanks_cons (by decide)]
  dsimp only
  rw [if_pos rfl, string?_renderString]
  dsimp only
  rw [skipBlanks_cons (by decide)]
  dsimp only
  rw [if_pos rfl, skips, isRead]
  rfl

/-! ## Values -/

section
variable {limit : Nat} {t rest : Text}

theorem value?_blank {c : Char} (blank : isBlank c = true) (limit : Nat) (t : Text) :
    value? limit (c :: t) = value? limit t := by
  cases limit with
  | zero => rfl
  | succ limit =>
    have skipped : skipBlanks (c :: t) = skipBlanks t := List.dropWhile_cons_of_pos blank
    rw [value?, skipped, value?]

theorem value?_newLine (limit depth : Nat) (t : Text) :
    value? limit (newLine depth ++ t) = value? limit t := by
  cases limit with
  | zero => rfl
  | succ limit => rw [value?, skipBlanks_newLine, value?]

theorem value?_renderString (limit : Nat) (content rest : Text) :
    value? (limit + 1) (renderString content ++ rest) = some (.string content, rest) := by
  have whole : renderString content ++ rest =
      Text.doubleQuote :: (content.flatMap escapeChar ++ Text.doubleQuote :: rest) := by
    simp only [renderString, List.cons_append, List.append_assoc, List.nil_append]
  rw [whole, value?, skipBlanks_cons (by decide)]
  dsimp only
  rw [if_pos rfl, string?_renderString]
  rfl

theorem value?_array {elements : List JsonDatum}
    (read : between? ']' (value? limit) limit t = some (elements, rest)) :
    value? (limit + 1) ('[' :: t) = some (.array elements, rest) := by
  rw [value?, skipBlanks_cons (by decide)]
  dsimp only
  rw [if_neg (by decide), if_pos rfl, read]
  rfl

theorem value?_object {members : List (Text × JsonDatum)}
    (read : between? '\x7d' (member? (value? limit)) limit t = some (members, rest)) :
    value? (limit + 1) ('\x7b' :: t) = some (.object (members.foldl setMember []), rest) := by
  rw [value?, skipBlanks_cons (by decide)]
  dsimp only
  rw [if_neg (by decide), if_neg (by decide), if_pos rfl, read]
  rfl

/-- The first character of a number. -/
theorem decimal_begins (n : Int) :
    ∃ c more, Text.decimal n = c :: more ∧ (c = '-' ∨ c.isDigit = true) := by
  cases n with
  | ofNat n =>
    obtain ⟨c, more, whole⟩ := List.exists_cons_of_ne_nil (Nat.toDigits_ne_nil (n := n) (b := 10))
    have isDigit : c.isDigit = true :=
      Nat.isDigit_of_mem_toDigits (by decide) (by decide) (whole ▸ List.mem_cons_self)
    exact ⟨c, more, (decimal_ofNat n).trans whole, Or.inr isDigit⟩
  | negSucc n => exact ⟨'-', _, decimal_negSucc n, Or.inl rfl⟩

/-- A character that a number may begin with is neither white space nor a bracket, a quotation mark
or a letter. -/
theorem ne_of_begins {c d : Char} (begins : c = '-' ∨ c.isDigit = true) (notMinus : d ≠ '-')
    (noDigit : d.isDigit = false) : c ≠ d := by
  rintro rfl
  rcases begins with minus | digit
  · exact notMinus minus
  · rw [noDigit] at digit
    cases digit

theorem value?_decimal (limit : Nat) (n : Int) (ends : EndsNumber rest) :
    value? (limit + 1) (Text.decimal n ++ rest) = some (.integer n, rest) := by
  obtain ⟨c, more, whole, begins⟩ := decimal_begins n
  have isRead := number?_decimal n ends
  have differs {d : Char} (notMinus : d ≠ '-') (noDigit : d.isDigit = false) : c ≠ d :=
    ne_of_begins begins notMinus noDigit
  have noBlank : isBlank c = false := by
    simp [isBlank, differs]
  rw [whole, List.cons_append] at isRead ⊢
  rw [value?, skipBlanks_cons noBlank]
  dsimp only
  rw [if_neg (differs (by decide) (by decide)), if_neg (differs (by decide) (by decide)),
    if_neg (differs (by decide) (by decide)), if_neg (differs (by decide) (by decide)),
    if_neg (differs (by decide) (by decide)), if_neg (differs (by decide) (by decide)), isRead]

end

theorem textAt_number (depth : Nat) (n : Int) : textAt depth (.number n) = Text.decimal n :=
  rfl

theorem textAt_string (depth : Nat) (t : Text) : textAt depth (.string t) = renderString t :=
  rfl

/-- A value begins with a character that is neither white space nor the bracket that closes an
array. -/
theorem textAt_begins (depth : Nat) (v : JsonValue) :
    ∃ c more, textAt depth v = c :: more ∧ isBlank c = false ∧ c ≠ ']' := by
  cases v with
  | number n =>
    obtain ⟨c, more, whole, begins⟩ := decimal_begins n
    refine ⟨c, more, ?_, ?_, ne_of_begins begins (by decide) (by decide)⟩
    · rw [textAt_number, whole]
    · simp [isBlank, ne_of_begins begins]
  | string t => exact ⟨Text.doubleQuote, _, rfl, by decide, by decide⟩
  | array elements =>
    cases elements with
    | nil => exact ⟨'[', _, rfl, by decide, by decide⟩
    | cons => exact ⟨'[', _, rfl, by decide, by decide⟩
  | object members =>
    cases members with
    | nil => exact ⟨'\x7b', _, rfl, by decide, by decide⟩
    | cons => exact ⟨'\x7b', _, rfl, by decide, by decide⟩

theorem memberText_begins (depth : Nat) (member : Text × JsonValue) :
    ∃ c more, memberText depth member = c :: more ∧ isBlank c = false ∧ c ≠ '\x7d' :=
  ⟨Text.doubleQuote, _, rfl, by decide, by decide⟩

theorem textAt_array (depth : Nat) (element : JsonValue) (others : List JsonValue) (rest : Text) :
    textAt depth (.array (element :: others)) ++ rest =
      '[' :: (newLine (depth + 1) ++ (textAt (depth + 1) element ++
        (furtherItems (depth + 1) (textAt (depth + 1)) others ++
          (newLine depth ++ ']' :: rest)))) := by
  have written : textAt depth (.array (element :: others)) =
      '[' :: newLine (depth + 1) ++ textAt (depth + 1) element
        ++ textOfElements (depth + 1) others ++ newLine depth ++ [']'] := rfl
  rw [written, textOfElements_eq]
  simp only [List.cons_append, List.append_assoc, List.nil_append]

theorem textAt_object (depth : Nat) (member : Text × JsonValue)
    (others : List (Text × JsonValue)) (rest : Text) :
    textAt depth (.object (member :: others)) ++ rest =
      '\x7b' :: (newLine (depth + 1) ++ (memberText (depth + 1) member ++
        (furtherItems (depth + 1) (memberText (depth + 1)) others ++
          (newLine depth ++ '\x7d' :: rest)))) := by
  have written : textAt depth (.object (member :: others)) =
      '\x7b' :: newLine (depth + 1) ++ renderString member.1 ++ [':', ' ']
        ++ textAt (depth + 1) member.2 ++ textOfMembers (depth + 1) others
        ++ newLine depth ++ ['\x7d'] := rfl
  rw [written, textOfMembers_eq, memberText]
  simp only [List.cons_append, List.append_assoc, List.nil_append]

/-- What is read back from the text of a value: the value, and what stands behind it. -/
def ReadsBack (v : JsonValue) : Prop :=
  ∀ depth limit rest, (textAt depth v).length ≤ limit → EndsNumber rest →
    value? limit (textAt depth v ++ rest) = some (v.datum, rest)

theorem readsBack_array {elements : List JsonValue}
    (readBack : ∀ element ∈ elements, ReadsBack element) : ReadsBack (.array elements) := by
  intro depth limit rest enough ends
  cases elements with
  | nil =>
    obtain ⟨limit, rfl⟩ := Nat.exists_eq_succ_of_ne_zero (Nat.ne_of_gt (Nat.zero_lt_of_lt enough))
    rw [datum]
    exact value?_array rfl
  | cons element others =>
    have whole := congrArg List.length (textAt_array depth element others [])
    simp only [List.append_nil, List.length_cons, List.length_append, newLine] at whole
    obtain ⟨few, short⟩ := length_furtherItems (depth + 1) (textAt (depth + 1)) others
    obtain ⟨limit, rfl⟩ := Nat.exists_eq_succ_of_ne_zero (show limit ≠ 0 by omega)
    rw [textAt_array, datum]
    refine value?_array ?_
    refine between?_rendered (by decide) (by decide) (value?_newLine limit (depth + 1))
      (textAt_begins (depth + 1) element) ?_ (by omega) depth rest
    intro item member after endsAfter
    refine readBack item member (depth + 1) limit after ?_ endsAfter
    rcases List.mem_cons.mp member with rfl | later
    · omega
    · have := short item later
      omega

theorem readsBack_object {members : List (Text × JsonValue)}
    (differ : (members.map (·.1)).Nodup) (readBack : ∀ member ∈ members, ReadsBack member.2) :
    ReadsBack (.object members) := by
  intro depth limit rest enough ends
  cases members with
  | nil =>
    obtain ⟨limit, rfl⟩ := Nat.exists_eq_succ_of_ne_zero (Nat.ne_of_gt (Nat.zero_lt_of_lt enough))
    rw [datum]
    show _ = some (JsonDatum.object (List.foldl setMember [] []), rest)
    exact value?_object rfl
  | cons member others =>
    have whole := congrArg List.length (textAt_object depth member others [])
    simp only [List.append_nil, List.length_cons, List.length_append, newLine] at whole
    obtain ⟨few, short⟩ := length_furtherItems (depth + 1) (memberText (depth + 1)) others
    obtain ⟨limit, rfl⟩ := Nat.exists_eq_succ_of_ne_zero (show limit ≠ 0 by omega)
    have kept : ((member :: others).map fun m => (m.1, m.2.datum)).foldl setMember [] =
        (member :: others).map fun m => (m.1, m.2.datum) := by
      refine foldl_setMember ?_
      rw [List.nil_append, List.map_map]
      exact differ
    rw [textAt_object, datum, ← kept]
    refine value?_object ?_
    refine between?_rendered (by decide) (by decide) (member?_newLine _ (depth + 1))
      (memberText_begins (depth + 1) member) ?_ (by omega) depth rest
    intro item present after endsAfter
    refine member?_memberText (value?_blank rfl limit) ?_
    refine readBack item present (depth + 1) limit after ?_ endsAfter
    have part : (textAt (depth + 1) item.2).length ≤ (memberText (depth + 1) item).length := by
      simp only [memberText, List.length_append]
      omega
    rcases List.mem_cons.mp present with rfl | later
    · omega
    · have := short item later
      omega

/-- Every value is read back from the text that it is written as. -/
theorem value?_textAt (v : JsonValue) (differ : v.NamesDiffer) : ReadsBack v := by
  induction v with
  | number n =>
    intro depth limit rest enough ends
    obtain ⟨c, more, whole, -⟩ := decimal_begins n
    have positive : 0 < (textAt depth (.number n)).length := by
      rw [textAt_number, whole]
      exact Nat.succ_pos _
    obtain ⟨limit, rfl⟩ := Nat.exists_eq_succ_of_ne_zero (show limit ≠ 0 by omega)
    rw [datum, textAt_number]
    exact value?_decimal limit n ends
  | string t =>
    intro depth limit rest enough ends
    have positive : 0 < (textAt depth (.string t)).length := Nat.succ_pos _
    obtain ⟨limit, rfl⟩ := Nat.exists_eq_succ_of_ne_zero (show limit ≠ 0 by omega)
    rw [datum, textAt_string]
    exact value?_renderString limit t rest
  | array elements ih =>
    cases differ with
    | array differ =>
      exact readsBack_array fun element member => ih element member (differ element member)
  | object members ih =>
    cases differ with
    | object names differ =>
      exact readsBack_object names fun member present => ih member present (differ member present)

/-- The text that a value is written as is read as this value. -/
theorem read?_text (v : JsonValue) (differ : v.NamesDiffer) :
    read? (textAt 0 v) = some v.datum := by
  have ends : EndsNumber [] := fun c first => by cases first
  have isRead := value?_textAt v differ 0 _ [] (Nat.le_refl _) ends
  rw [List.append_nil] at isRead
  rw [read?, isRead]
  rfl

end JsonDatum

end UrlScan
