import AsyncMarkers.Json.Reader
import AsyncMarkers.Proofs.JsonNumber
import AsyncMarkers.Proofs.JsonValue

/-!
# Written values

A JSON value that is written and read again is the same, save for its scalars (`Json.read?_pretty`):
a number is read as `Json.Number.reread` says, which need not be the number that was written, and a
string without a text gets the one that stands for it.

Tokens stand between a text and its value, and there are two proofs, one for each side of them.

* `Json.Lexes cs ts` says that the lexer makes the tokens `ts` of the characters `cs`. Words and
  numbers end where something follows that ends them, so texts cannot be put together just so, but
  they can around a mark (`Json.Lexes.mark`), and marks stand between the parts of a value.
* `Json.Assembled j` says that the reader makes the value `j` of its tokens, in any place where a
  value is due.

Both are proved by induction on the value, and within an array or an object by induction on its
parts.
-/

namespace AsyncMarkers.Json

/-! ### Texts and tokens -/

/-- The tokens so far, the last one first, with the word or the number that may have been begun. -/
def Scanner.tokens? (s : Scanner) : Option (List Token) :=
  match s.mode with
  | .idle => some s.reversed
  | .word letters => do some ((← word? letters.reverse) :: s.reversed)
  | .number chars => do some (.number (← number? chars.reverse) :: s.reversed)
  | _ => none

/-- At the end of a text, what has been begun is finished. -/
theorem Scanner.finish?_eq (s : Scanner) : s.finish? = s.tokens?.map List.reverse := by
  obtain ⟨mode, reversed⟩ := s
  cases mode with
  | idle => rfl
  | word letters => cases h : word? letters.reverse <;> simp [finish?, tokens?, h]
  | number chars => cases h : number? chars.reverse <;> simp [finish?, tokens?, h]
  | string literal => rfl
  | escape literal => rfl
  | unicode literal count unit => rfl

/-- The lexer makes the tokens `ts` of the characters `cs`, wherever they stand between tokens. -/
def Lexes (cs : List Char) (ts : List Token) : Prop :=
  ∀ before, ∃ s, cs.foldlM Scanner.step? ⟨.idle, before⟩ = some s ∧
    s.tokens? = some (ts.reverse ++ before)

/-- The tokens of a text, if it stands by itself. -/
theorem Lexes.scan? {cs : List Char} {ts : List Token} (h : Lexes cs ts) :
    Token.scan? cs = some ts := by
  obtain ⟨s, h_run, h_tokens⟩ := h []
  rw [Token.scan?]
  show (cs.foldlM Scanner.step? ⟨.idle, []⟩).bind _ = _
  rw [h_run, Option.bind_some, Scanner.finish?_eq, h_tokens]
  simp

/-- A character that ends words and numbers, and stands for the tokens `ts` by itself. -/
def Marks (c : Char) (ts : List Token) : Prop :=
  ¬ ('a' ≤ c ∧ c ≤ 'z') ∧ isNumeric c = false ∧
    ∀ before, Scanner.start? before c = some ⟨.idle, ts.reverse ++ before⟩

/-- A mark ends what has been begun, and adds its own tokens. -/
theorem Marks.step? {c : Char} {ts us : List Token} (h : Marks c ts) {s : Scanner}
    (h_s : s.tokens? = some us) : s.step? c = some ⟨.idle, ts.reverse ++ us⟩ := by
  obtain ⟨mode, reversed⟩ := s
  -- a word or a number that has been begun ends here, and is put in front of the mark
  cases mode with
  | idle =>
    cases h_s
    exact h.2.2 _
  | word letters =>
    obtain ⟨t, h_t, h_us⟩ := Option.bind_eq_some_iff.1 h_s
    cases h_us
    simp [Scanner.step?, h.1, h_t, h.2.2]
  | number chars =>
    obtain ⟨x, h_x, h_us⟩ := Option.bind_eq_some_iff.1 h_s
    cases h_us
    simp [Scanner.step?, h.2.1, h_x, h.2.2]
  -- inside a string, nothing can be finished
  | string literal => cases h_s
  | escape literal => cases h_s
  | unicode literal count unit => cases h_s

/-- An empty text has no tokens. -/
theorem Lexes.nil : Lexes [] [] := fun _ => ⟨_, rfl, rfl⟩

/-- Texts can be put together around a mark. -/
theorem Lexes.mark {cs ds : List Char} {c : Char} {ts us vs : List Token} (h : Lexes cs ts)
    (h_c : Marks c us) (h' : Lexes ds vs) : Lexes (cs ++ c :: ds) (ts ++ us ++ vs) := by
  intro before
  obtain ⟨s, h_run, h_tokens⟩ := h before
  obtain ⟨s', h_run', h_tokens'⟩ := h' (us.reverse ++ (ts.reverse ++ before))
  refine ⟨s', ?_, ?_⟩
  · rw [List.foldlM_append, h_run]
    show (s.step? c).bind _ = _
    rw [h_c.step? h_tokens, Option.bind_some, h_run']
  · simp [h_tokens']

/-- The marks that JSON has, here and below, and the white space that the printer uses. -/
theorem marks_openBrace : Marks '\x7b' [.openBrace] := ⟨by decide, by decide, fun _ => rfl⟩
theorem marks_closeBrace : Marks '\x7d' [.closeBrace] := ⟨by decide, by decide, fun _ => rfl⟩
theorem marks_openBracket : Marks '[' [.openBracket] := ⟨by decide, by decide, fun _ => rfl⟩
theorem marks_closeBracket : Marks ']' [.closeBracket] := ⟨by decide, by decide, fun _ => rfl⟩
theorem marks_comma : Marks ',' [.comma] := ⟨by decide, by decide, fun _ => rfl⟩
theorem marks_colon : Marks ':' [.colon] := ⟨by decide, by decide, fun _ => rfl⟩
theorem marks_blank : Marks ' ' [] := ⟨by decide, by decide, fun _ => rfl⟩
theorem marks_lineBreak : Marks '\n' [] := ⟨by decide, by decide, fun _ => rfl⟩

/-- The words that JSON has. -/
theorem lexes_null : Lexes ['n', 'u', 'l', 'l'] [.null] := fun _ => ⟨_, rfl, rfl⟩
theorem lexes_true : Lexes ['t', 'r', 'u', 'e'] [.bool true] := fun _ => ⟨_, rfl, rfl⟩
theorem lexes_false : Lexes ['f', 'a', 'l', 's', 'e'] [.bool false] := fun _ => ⟨_, rfl, rfl⟩

/-! ### Numbers -/

/-- Inside a number, characters are gathered. -/
theorem foldlM_number (before : List Token) {cs : List Char} (h : ∀ c ∈ cs, isNumeric c)
    (reversed : List Char) :
    cs.foldlM Scanner.step? ⟨.number reversed, before⟩ =
      some ⟨.number (cs.reverse ++ reversed), before⟩ := by
  induction cs generalizing reversed with
  | nil => rfl
  | cons c cs ih =>
    obtain ⟨h_c, h_cs⟩ := List.forall_mem_cons.1 h
    rw [List.foldlM_cons, Scanner.step?]
    simp [h_c, ih h_cs]

/-- A numeral is one token. -/
theorem lexes_numeral {cs : List Char} {x : Number} (h : IsNumeral cs) (h_x : number? cs = some x) :
    Lexes cs [.number x] := by
  intro before
  obtain ⟨c, rest, rfl, h_c⟩ := h.exists_cons
  have h_start : Scanner.start? before c = some ⟨.number [c], before⟩ := by
    unfold Scanner.start?
    -- the other characters that something starts with are no digits
    split
    case h_12 => rw [if_pos h_c]
    all_goals exact absurd h_c (by decide)
  refine ⟨⟨.number (rest.reverse ++ [c]), before⟩, ?_, by simp [Scanner.tokens?, h_x]⟩
  rw [List.foldlM_cons]
  show (Scanner.start? before c).bind _ = _
  rw [h_start]
  exact foldlM_number before (List.forall_mem_cons.1 h.isNumeric).2 [c]

/-! ### Strings -/

/-- The lexer undoes the digits that the printer uses. -/
theorem hexDigit?_digitChar : ∀ n < 16, hexDigit? (Nat.digitChar n) = some n := by decide

/-- The lexer makes a character of its escaped form. -/
theorem foldlM_escape (before : List Token) (reversed : List Char) (c : Char) :
    (escape c).foldlM Scanner.step? ⟨.string ⟨reversed, none, true⟩, before⟩ =
      some ⟨.string ⟨c :: reversed, none, true⟩, before⟩ := by
  -- some characters have a short escape, other control characters a long one, the rest none
  unfold escape
  split
  · next h => subst h; rfl
  split
  · next h => subst h; rfl
  split
  · next h => subst h; rfl
  split
  · next h => subst h; rfl
  split
  · next h => subst h; rfl
  split
  · next h => subst h; rfl
  split
  · next h => subst h; rfl
  split
  · next h =>
    -- two zeros and the two digits of a control character
    have h_lt : c.toNat < 32 := h
    have h_high := hexDigit?_digitChar (c.toNat / 16) (by omega)
    have h_low := hexDigit?_digitChar (c.toNat % 16) (by omega)
    have h_unit : 16 * (c.toNat / 16) + c.toNat % 16 = c.toNat := by omega
    have h_zero : hexDigit? '0' = some 0 := rfl
    have h_push : Literal.pushUnit ⟨reversed, none, true⟩ c.toNat =
        ⟨c :: reversed, none, true⟩ := by
      rw [Literal.pushUnit, if_neg (by omega), if_neg (by omega), Literal.push, Char.ofNat_toNat]
      rfl
    simp [Scanner.step?, h_zero, h_high, h_low, h_unit, h_push]
  · next h_quote h_backslash _ _ _ _ _ h_control =>
    simp [Scanner.step?, h_quote, h_backslash, h_control, Literal.push]

/-- The lexer makes a text of its escaped form. -/
theorem foldlM_flatMap_escape (before : List Token) (cs reversed : List Char) :
    (cs.flatMap escape).foldlM Scanner.step? ⟨.string ⟨reversed, none, true⟩, before⟩ =
      some ⟨.string ⟨cs.reverse ++ reversed, none, true⟩, before⟩ := by
  induction cs generalizing reversed with
  | nil => rfl
  | cons c cs ih =>
    rw [List.flatMap_cons, List.foldlM_append, foldlM_escape]
    show (cs.flatMap escape).foldlM Scanner.step? _ = _
    rw [ih, List.reverse_cons, List.append_assoc]
    rfl

/-- A text in quotes is read as itself, and an absent one as the replacement character. -/
theorem lexes_quote (s : Option String) :
    Lexes (quote s).toList [.string (some (s.getD "\ufffd"))] := by
  intro before
  refine ⟨⟨.idle, .string (some (s.getD "\ufffd")) :: before⟩, ?_, rfl⟩
  rw [quote, String.toList_ofList, List.foldlM_cons]
  show ((s.getD "\ufffd").toList.flatMap escape ++ ['"']).foldlM Scanner.step?
    ⟨.string ⟨[], none, true⟩, before⟩ = _
  rw [List.foldlM_append, foldlM_flatMap_escape]
  simp [Scanner.step?, Literal.token]

/-! ### Values -/

mutual

/-- The tokens of a value. -/
def tokens : Json → List Token
  | .null => [.null]
  | .bool b => [.bool b]
  | .number x => [.number x]
  | .string s => [.string s]
  | .array items => .openBracket :: (tokensOfItems items ++ [.closeBracket])
  | .object members => .openBrace :: (tokensOfMembers members ++ [.closeBrace])

/-- The tokens of the items of an array. -/
def tokensOfItems : List Json → List Token
  | [] => []
  | item :: items => item.tokens ++ tokensOfMoreItems items

/-- The tokens of further items, with a comma in front of each. -/
def tokensOfMoreItems : List Json → List Token
  | [] => []
  | item :: items => .comma :: (item.tokens ++ tokensOfMoreItems items)

/-- The tokens of the members of an object. -/
def tokensOfMembers : List (Option String × Json) → List Token
  | [] => []
  | (key, value) :: members =>
    .string key :: .colon :: (value.tokens ++ tokensOfMoreMembers members)

/-- The tokens of further members, with a comma in front of each. -/
def tokensOfMoreMembers : List (Option String × Json) → List Token
  | [] => []
  | (key, value) :: members =>
    .comma :: .string key :: .colon :: (value.tokens ++ tokensOfMoreMembers members)

end

/-- What is read again of a number that has been written. -/
def Number.reread (x : Number) : Number := (number? x.write.toList).getD x

/-- Every number that is written can be read again. -/
theorem Number.number?_write (x : Number) : number? x.write.toList = some x.reread := by
  obtain ⟨y, h⟩ := x.isNumeral_write.exists_number?
  rw [reread, h, Option.getD_some]

/-- What becomes of scalars if a value is written and read again. -/
def Respelling.written : Respelling where
  number := Number.reread
  absent := some "\ufffd"
  number_nat := by
    intro n h
    have h_write : (Number.integer n).write.toList = Nat.toDigits 10 n := String.toList_ofList
    rw [Number.reread, h_write, number?_toDigits (Nat.lt_trans h (by decide)), Option.getD_some]

/-- A number is read as it has been respelled. -/
theorem lexes_number (x : Number) :
    Lexes x.write.toList [.number (Respelling.written.number x)] :=
  lexes_numeral x.isNumeral_write x.number?_write

/-- A text is read as it has been respelled. -/
theorem lexes_string (s : Option String) :
    Lexes (quote s).toList [.string (s.or Respelling.written.absent)] := by
  cases s with
  | none => exact lexes_quote none
  | some s => exact lexes_quote (some s)

/-- Blanks in front of a text are skipped. -/
theorem lexes_blanks (n : Nat) {cs : List Char} {ts : List Token} (h : Lexes cs ts) :
    Lexes (List.replicate n ' ' ++ cs) ts := by
  induction n with
  | zero => exact h
  | succ n ih => exact Lexes.nil.mark marks_blank ih

/-- Texts can be put together around a line break with its blanks. -/
theorem Lexes.newline {cs ds : List Char} {ts us : List Token} (h : Lexes cs ts) (level : Nat)
    (h' : Lexes ds us) : Lexes (cs ++ (newline level).toList ++ ds) (ts ++ us) := by
  have h_lines := h.mark marks_lineBreak (lexes_blanks (2 * level) h')
  simpa [Json.newline] using h_lines

/-- The lexer makes the tokens of a value of its text, with its scalars respelled. -/
def Readable (j : Json) : Prop :=
  ∀ level, Lexes (prettyAt level j).toList (j.respell .written).tokens

/-- Further items are read as their tokens, each behind a comma. -/
theorem lexes_moreItems {items : List Json} (ih : ∀ item ∈ items, item.Readable) (level : Nat)
    {text : String} {ts : List Token} (h : Lexes text.toList ts) :
    Lexes (("," ++ newline level).intercalate (text :: prettyItems level items)).toList
      (ts ++ tokensOfMoreItems (respellItems .written items)) := by
  induction items generalizing text ts with
  | nil => simpa [prettyItems, tokensOfMoreItems, respellItems] using h
  | cons item items ih_items =>
    obtain ⟨h_item, h_items⟩ := List.forall_mem_cons.1 ih
    have h_more := h.mark marks_comma (Lexes.nil.newline level (ih_items h_items (h_item level)))
    rw [prettyItems, String.intercalate_cons_cons]
    simpa [tokensOfMoreItems, respellItems] using h_more

/-- A member is read as its key, a colon and the tokens of its value. -/
theorem lexes_member (level : Nat) (key : Option String) {value : Json} (h : value.Readable) :
    Lexes (quote key ++ ": " ++ prettyAt level value).toList
      (.string (key.or Respelling.written.absent) :: .colon ::
        (value.respell .written).tokens) := by
  have h_value := (lexes_string key).mark marks_colon (Lexes.nil.mark marks_blank (h level))
  simpa using h_value

/-- Further members are read as their tokens, each behind a comma. -/
theorem lexes_moreMembers {members : List (Option String × Json)}
    (ih : ∀ m ∈ members, m.2.Readable) (level : Nat) {text : String} {ts : List Token}
    (h : Lexes text.toList ts) :
    Lexes (("," ++ newline level).intercalate (text :: prettyMembers level members)).toList
      (ts ++ tokensOfMoreMembers (respellMembers .written members)) := by
  induction members generalizing text ts with
  | nil => simpa [prettyMembers, tokensOfMoreMembers, respellMembers] using h
  | cons m members ih_members =>
    obtain ⟨key, value⟩ := m
    obtain ⟨h_value, h_members⟩ := List.forall_mem_cons.1 ih
    have h_more := h.mark marks_comma
      (Lexes.nil.newline level (ih_members h_members (lexes_member level key h_value)))
    rw [prettyMembers, String.intercalate_cons_cons]
    simpa [tokensOfMoreMembers, respellMembers] using h_more

/-- Every value is written as a text of its tokens. -/
theorem readable (j : Json) : j.Readable := by
  induction j using parts_induction with
  | null => exact fun level => by simpa [prettyAt, tokens, respell] using lexes_null
  | bool b =>
    intro level
    cases b with
    | true => simpa [prettyAt, tokens, respell] using lexes_true
    | false => simpa [prettyAt, tokens, respell] using lexes_false
  | number x => exact fun level => by simpa [prettyAt, tokens, respell] using lexes_number x
  | string s => exact fun level => by simpa [prettyAt, tokens, respell] using lexes_string s
  | array items ih =>
    intro level
    -- an empty array is written without a line break
    cases items with
    | nil =>
      have h := Lexes.nil.mark marks_openBracket (Lexes.nil.mark marks_closeBracket Lexes.nil)
      simpa [prettyAt, tokens, respell, respellItems, tokensOfItems] using h
    | cons item items =>
      obtain ⟨h_item, h_items⟩ := List.forall_mem_cons.1 ih
      -- all items stand one level further in, and the bracket behind them does not
      have h_inner := lexes_moreItems h_items (level + 1) (h_item (level + 1))
      have h := Lexes.nil.mark marks_openBracket
        ((Lexes.nil.newline (level + 1) h_inner).newline level
          (Lexes.nil.mark marks_closeBracket Lexes.nil))
      simpa [prettyAt, prettyItems, tokens, respell, respellItems, tokensOfItems] using h
  | object members ih =>
    intro level
    cases members with
    | nil =>
      have h := Lexes.nil.mark marks_openBrace (Lexes.nil.mark marks_closeBrace Lexes.nil)
      simpa [prettyAt, tokens, respell, respellMembers, tokensOfMembers] using h
    | cons m members =>
      obtain ⟨key, value⟩ := m
      obtain ⟨h_value, h_members⟩ := List.forall_mem_cons.1 ih
      have h_inner := lexes_moreMembers h_members (level + 1) (lexes_member (level + 1) key h_value)
      have h := Lexes.nil.mark marks_openBrace
        ((Lexes.nil.newline (level + 1) h_inner).newline level
          (Lexes.nil.mark marks_closeBrace Lexes.nil))
      simpa [prettyAt, prettyMembers, tokens, respell, respellMembers, tokensOfMembers] using h

/-! ### Reading tokens -/

/-- Wherever a value is due, the reader makes it of its tokens. -/
def Assembled (j : Json) : Prop :=
  ∀ stack fresh rest, (j.tokens ++ rest).foldlM Reading.step? (.value stack fresh) =
    rest.foldlM Reading.step? (.after stack j)

/-- Further items are added to those that have been read, up to the end of the array. -/
theorem foldlM_moreItems {items : List Json} (ih : ∀ item ∈ items, item.Assembled)
    (stack : List Frame) (items' : List Json) (item : Json) (rest : List Token) :
    (tokensOfMoreItems items ++ .closeBracket :: rest).foldlM Reading.step?
        (.after (.array items' :: stack) item) =
      rest.foldlM Reading.step? (.after stack (.array ((item :: items').reverse ++ items))) := by
  induction items generalizing items' item with
  | nil =>
    rw [List.append_nil]
    rfl
  | cons next items ih_items =>
    obtain ⟨h_next, h_items⟩ := List.forall_mem_cons.1 ih
    rw [tokensOfMoreItems, List.cons_append, List.append_assoc]
    show (next.tokens ++ _).foldlM Reading.step?
      (.value (.array (item :: items') :: stack) false) = _
    rw [h_next, ih_items h_items]
    simp

/-- Further members are added to those that have been read, up to the end of the object. -/
theorem foldlM_moreMembers {members : List (Option String × Json)}
    (ih : ∀ m ∈ members, m.2.Assembled) (stack : List Frame)
    (members' : List (Option String × Json)) (key : Option String) (value : Json)
    (rest : List Token) :
    (tokensOfMoreMembers members ++ .closeBrace :: rest).foldlM Reading.step?
        (.after (.object members' key :: stack) value) =
      rest.foldlM Reading.step?
        (.after stack (.object (((key, value) :: members').reverse ++ members))) := by
  induction members generalizing members' key value with
  | nil =>
    rw [List.append_nil]
    rfl
  | cons next members ih_members =>
    -- the key is kept in the frame until the value behind it has been read
    obtain ⟨nextKey, nextValue⟩ := next
    obtain ⟨h_next, h_members⟩ := List.forall_mem_cons.1 ih
    rw [tokensOfMoreMembers]
    simp only [List.cons_append, List.append_assoc]
    show (nextValue.tokens ++ _).foldlM Reading.step?
      (.value (.object ((key, value) :: members') nextKey :: stack) false) = _
    rw [h_next, ih_members h_members]
    simp

/-- The reader makes every value of its tokens. -/
theorem assembled (j : Json) : j.Assembled := by
  induction j using parts_induction with
  | null => exact fun stack fresh rest => rfl
  | bool b => exact fun stack fresh rest => rfl
  | number x => exact fun stack fresh rest => rfl
  | string s => exact fun stack fresh rest => rfl
  | array items ih =>
    -- the first item is due right behind the bracket, and the others behind commas
    intro stack fresh rest
    cases items with
    | nil => rfl
    | cons item items =>
      obtain ⟨h_item, h_items⟩ := List.forall_mem_cons.1 ih
      rw [tokens, tokensOfItems]
      simp only [List.cons_append, List.append_assoc, List.nil_append]
      show (item.tokens ++ _).foldlM Reading.step? (.value (.array [] :: stack) true) = _
      rw [h_item, foldlM_moreItems h_items]
      rfl
  | object members ih =>
    intro stack fresh rest
    cases members with
    | nil => rfl
    | cons m members =>
      obtain ⟨key, value⟩ := m
      obtain ⟨h_value, h_members⟩ := List.forall_mem_cons.1 ih
      rw [tokens, tokensOfMembers]
      simp only [List.cons_append, List.append_assoc, List.nil_append]
      show (value.tokens ++ _).foldlM Reading.step? (.value (.object [] key :: stack) false) = _
      rw [h_value, foldlM_moreMembers h_members]
      rfl

/-- The reader makes a value of its tokens, if they stand by themselves. -/
theorem ofTokens?_tokens (j : Json) : ofTokens? j.tokens = some j := by
  have h : j.tokens.foldlM Reading.step? (.value [] false) = some (.after [] j) := by
    rw [← List.append_nil j.tokens, assembled]
    rfl
  rw [ofTokens?, h]
  rfl

/-- A value that is written and read again is the same, save for its scalars. -/
theorem read?_pretty (j : Json) : read? j.pretty = some (j.respell .written) := by
  rw [read?, pretty, (readable j 0).scan?]
  exact ofTokens?_tokens _

end AsyncMarkers.Json
