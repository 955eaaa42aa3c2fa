import AsyncMarkers.Json.Printer
import AsyncMarkers.Json.Token

/-!
# Written numbers

The text of a number is a numeral (`IsNumeral`): a sign, a whole part without needless zeros, and
perhaps a fraction and an exponent. Whatever number is written, a numeral is
(`Json.Number.isNumeral_write`), and a numeral can always be read (`IsNumeral.exists_number?`).

Which number is read is another matter, since a double need not be read as it was. A natural number
that fits into a word of 64 bits is (`Json.number?_toDigits`).

For doubles the whole part is what takes care. The digits of a decimal number are followed by zeros
if its exponent is positive, and would make a numeral with needless zeros if they were a single
zero. So it matters that the shortest decimal of a double has no exponent if it is zero
(`Double.isPlain_shortest`).
-/

namespace AsyncMarkers

open Json

/-! ### Digits -/

/-- A list of decimal digits, of which there is one. -/
def IsDigits (cs : List Char) : Prop := cs ≠ [] ∧ ∀ c ∈ cs, c.isDigit

/-- Digits without a zero in front of another digit. -/
def IsWhole (cs : List Char) : Prop := IsDigits cs ∧ (cs = ['0'] ∨ cs.head? ≠ some '0')

/-- A natural number is written in digits. -/
theorem isDigits_toDigits (n : Nat) : IsDigits (Nat.toDigits 10 n) :=
  ⟨Nat.toDigits_ne_nil, fun _ h => Nat.isDigit_of_mem_toDigits (by decide) (by decide) h⟩

/-- More digits may be put in front. -/
theorem IsDigits.append_left {cs ds : List Char} (h_cs : ∀ c ∈ cs, c.isDigit) (h : IsDigits ds) :
    IsDigits (cs ++ ds) :=
  ⟨by simp [h.1], List.forall_mem_append.2 ⟨h_cs, h.2⟩⟩

/-- Zeros are digits. -/
theorem isDigit_of_mem_zeros {k : Nat} : ∀ c ∈ zeros k, c.isDigit := by
  intro c h_c
  rw [List.eq_of_mem_replicate h_c]
  rfl

/-- Only zero is written with a zero in front. -/
theorem head?_toDigits {n : Nat} (h : n ≠ 0) : (Nat.toDigits 10 n).head? ≠ some '0' := by
  have h_digit : ∀ d < 10, d ≠ 0 → Nat.digitChar d ≠ '0' := by decide
  induction n using Nat.strongRecOn with
  | ind n ih =>
    rw [Nat.toDigits_eq_if (by decide)]
    split
    · next h_lt => simpa using h_digit n h_lt h
    · next h_ge =>
      -- the first digit is that of the number without its last one, which is not zero either
      have ih := ih (n / 10) (by omega) (by omega)
      obtain ⟨c, cs, h_cs⟩ :=
        List.exists_cons_of_ne_nil (Nat.toDigits_ne_nil (n := n / 10) (b := 10))
      simpa [h_cs] using ih

/-- A natural number is written without needless zeros. -/
theorem isWhole_toDigits (n : Nat) : IsWhole (Nat.toDigits 10 n) := by
  refine ⟨isDigits_toDigits n, ?_⟩
  by_cases h : n = 0
  · subst h
    exact .inl rfl
  · exact .inr (head?_toDigits h)

/-! ### Reading a numeral -/

/-- Digits are read up to the first character that is none. -/
theorem Json.digits?_append {ds rest : List Char} (h : IsDigits ds)
    (h_rest : ∀ c ∈ rest.head?, ¬ c.isDigit) :
    digits? (ds ++ rest) = some (ds.map digitValue, rest) := by
  have h_take : rest.takeWhile Char.isDigit = [] := by
    cases rest with
    | nil => rfl
    | cons c rest => exact List.takeWhile_cons_of_neg (h_rest c rfl)
  have h_drop : rest.dropWhile Char.isDigit = rest := by
    cases rest with
    | nil => rfl
    | cons c rest => exact List.dropWhile_cons_of_neg (h_rest c rfl)
  obtain ⟨d, ds', rfl⟩ := List.exists_cons_of_ne_nil h.1
  rw [digits?, List.takeWhile_append_of_pos h.2, h_take, List.append_nil,
    List.dropWhile_append_of_pos h.2, h_drop]

/-- The digit with the value zero is the zero. -/
theorem eq_zero_of_digitValue {c : Char} (h : c.isDigit) (h_value : digitValue c = 0) :
    c = '0' := by
  simp only [Char.isDigit, Bool.and_eq_true, decide_eq_true_eq, ge_iff_le,
    UInt32.le_iff_toNat_le] at h
  simp only [digitValue, Char.toNat] at h_value
  exact Char.toNat_inj.1 (show c.val.toNat = '0'.val.toNat by omega)

/-- A whole part is read up to the first character that is no digit. -/
theorem Json.wholePart?_append {ds rest : List Char} (h : IsWhole ds)
    (h_rest : ∀ c ∈ rest.head?, ¬ c.isDigit) :
    wholePart? (ds ++ rest) = some (ds.map digitValue, rest) := by
  rw [wholePart?, digits?_append h.1 h_rest]
  split
  · next h_zeros =>
    -- a zero in front of another digit, which a whole part has not
    rcases h.2 with rfl | h_head
    · simp at h_zeros
    · obtain ⟨d, ds', rfl⟩ := List.exists_cons_of_ne_nil h.1.1
      simp at h_zeros
      have h_d := eq_zero_of_digitValue (h.1.2 d List.mem_cons_self) h_zeros.1.1
      exact absurd (congrArg some h_d) h_head
  · rfl

/-- The sign in front of a numeral. -/
def signText (negative : Bool) : List Char := if negative then ['-'] else []

/-- A numeral is read part by part, whatever its sign. -/
theorem Json.numeral?_eq {whole rest ex : List Char} {fraction : Option (List Nat)}
    {exponent : Option Int} (negative : Bool) (h_whole : IsWhole whole)
    (h_rest : ∀ c ∈ rest.head?, ¬ c.isDigit) (h_fraction : fraction? rest = some (fraction, ex))
    (h_exponent : exponent? ex = some (exponent, [])) :
    numeral? (signText negative ++ (whole ++ rest)) =
      some ⟨negative, whole.map digitValue, fraction, exponent⟩ := by
  have h_part := wholePart?_append h_whole h_rest
  cases negative with
  | true => simp [numeral?, signText, h_part, h_fraction, h_exponent]
  | false =>
    -- without a sign, the first character is a digit, and not taken for one
    obtain ⟨d, ds, rfl⟩ := List.exists_cons_of_ne_nil h_whole.1.1
    have h_d : d ≠ '-' := by
      rintro rfl
      exact absurd (h_whole.1.2 '-' List.mem_cons_self) (by decide)
    rw [List.cons_append] at h_part
    simp [numeral?, signText, h_part, h_d, h_fraction, h_exponent]

/-! ### The texts of numbers -/

/-- What may follow the whole part of a numeral: a point with digits. -/
def IsFraction (cs : List Char) : Prop := cs = [] ∨ ∃ ds, cs = '.' :: ds ∧ IsDigits ds

/-- What may follow behind that: an exponent, with a sign or without. -/
def IsExponent (cs : List Char) : Prop :=
  cs = [] ∨ ∃ sign ds, (sign = [] ∨ sign = ['+'] ∨ sign = ['-']) ∧ cs = 'e' :: (sign ++ ds) ∧
    IsDigits ds

/-- The text of a number. -/
def IsNumeral (cs : List Char) : Prop :=
  ∃ negative whole fraction exponent, IsWhole whole ∧ IsFraction fraction ∧ IsExponent exponent ∧
    cs = signText negative ++ (whole ++ (fraction ++ exponent))

/-- An exponent can be read to the end. -/
theorem Json.exists_exponent? {cs : List Char} (h : IsExponent cs) :
    ∃ e, exponent? cs = some (e, []) := by
  rcases h with rfl | ⟨sign, ds, h_sign, rfl, h_ds⟩
  · exact ⟨none, rfl⟩
  · have h_digits : digits? (ds ++ []) = _ := digits?_append h_ds (by simp)
    rw [List.append_nil] at h_digits
    rcases h_sign with rfl | rfl | rfl
    · -- the first digit is not taken for a sign
      obtain ⟨d, ds, rfl⟩ := List.exists_cons_of_ne_nil h_ds.1
      have h_d := h_ds.2 d List.mem_cons_self
      have h_minus : d ≠ '-' := by rintro rfl; exact absurd h_d (by decide)
      have h_plus : d ≠ '+' := by rintro rfl; exact absurd h_d (by decide)
      simp [exponent?, signedExponent?, h_digits, h_minus, h_plus]
    · simp [exponent?, signedExponent?, h_digits]
    · simp [exponent?, signedExponent?, h_digits]

/-- An exponent does not start with a digit. -/
theorem IsExponent.head? {cs : List Char} (h : IsExponent cs) : ∀ c ∈ cs.head?, ¬ c.isDigit := by
  rcases h with rfl | ⟨sign, ds, h_sign, rfl, h_ds⟩
  · simp
  · simp

/-- A fraction can be read up to the exponent. -/
theorem Json.exists_fraction? {cs ex : List Char} (h : IsFraction cs) (h_ex : IsExponent ex) :
    ∃ f, fraction? (cs ++ ex) = some (f, ex) := by
  rcases h with rfl | ⟨ds, rfl, h_ds⟩
  · refine ⟨none, ?_⟩
    -- without a point, it ends right away, be there an exponent or not
    rcases h_ex with rfl | ⟨sign, ds, h_sign, rfl, h_ds⟩
    · rfl
    · rfl
  · exact ⟨some (ds.map digitValue), by simp [fraction?, digits?_append h_ds h_ex.head?]⟩

/-- A numeral can be read, as some number. -/
theorem IsNumeral.exists_number? {cs : List Char} (h : IsNumeral cs) :
    ∃ x, number? cs = some x := by
  obtain ⟨negative, whole, fraction, exponent, h_whole, h_fraction, h_exponent, rfl⟩ := h
  obtain ⟨e, h_e⟩ := exists_exponent? h_exponent
  obtain ⟨f, h_f⟩ := exists_fraction? h_fraction h_exponent
  -- behind the whole part there is a point, or an exponent, or nothing
  have h_rest : ∀ c ∈ (fraction ++ exponent).head?, ¬ c.isDigit := by
    rcases h_fraction with rfl | ⟨ds, rfl, h_ds⟩
    · exact h_exponent.head?
    · simp
  exact ⟨_, by rw [number?, numeral?_eq negative h_whole h_rest h_f h_e]; rfl⟩

/-- Digits can stand in a number. -/
theorem Json.isNumeric_of_isDigits {cs : List Char} (h : IsDigits cs) : ∀ c ∈ cs, isNumeric c := by
  intro c h_c
  simp [isNumeric, h.2 c h_c]

/-- All characters of the text of a number can stand in a number. -/
theorem IsNumeral.isNumeric {cs : List Char} (h : IsNumeral cs) : ∀ c ∈ cs, isNumeric c := by
  obtain ⟨negative, whole, fraction, exponent, h_whole, h_fraction, h_exponent, rfl⟩ := h
  simp only [List.forall_mem_append]
  refine ⟨?_, isNumeric_of_isDigits h_whole.1, ?_, ?_⟩
  · cases negative <;> simp [signText, Json.isNumeric]
  · rcases h_fraction with rfl | ⟨ds, rfl, h_ds⟩
    · simp
    · exact List.forall_mem_cons.2 ⟨by decide, isNumeric_of_isDigits h_ds⟩
  · rcases h_exponent with rfl | ⟨sign, ds, h_sign, rfl, h_ds⟩
    · simp
    · refine List.forall_mem_cons.2
        ⟨by decide, List.forall_mem_append.2 ⟨?_, isNumeric_of_isDigits h_ds⟩⟩
      rcases h_sign with rfl | rfl | rfl <;> simp [Json.isNumeric]

/-- The text of a number starts with a digit or a sign. -/
theorem IsNumeral.exists_cons {cs : List Char} (h : IsNumeral cs) :
    ∃ c rest, cs = c :: rest ∧ (c = '-' || c.isDigit) = true := by
  obtain ⟨negative, whole, fraction, exponent, h_whole, -, -, rfl⟩ := h
  cases negative with
  | true => exact ⟨'-', _, rfl, rfl⟩
  | false =>
    obtain ⟨d, ds, rfl⟩ := List.exists_cons_of_ne_nil h_whole.1.1
    exact ⟨d, _, rfl, by simp [h_whole.1.2 d List.mem_cons_self]⟩

/-! ### Numbers are written as numerals -/

/-- Zeros may follow a whole part, save a single zero. -/
theorem IsWhole.append_zeros {cs : List Char} {k : Nat} (h : IsWhole cs)
    (h_zero : cs = ['0'] → k = 0) : IsWhole (cs ++ zeros k) := by
  by_cases h_cs : cs = ['0']
  · rw [h_zero h_cs]
    simpa [zeros] using h
  · have h_head := h.2.resolve_left h_cs
    obtain ⟨d, ds, rfl⟩ := List.exists_cons_of_ne_nil h.1.1
    refine ⟨⟨by simp, List.forall_mem_append.2 ⟨h.1.2, isDigit_of_mem_zeros⟩⟩, .inr ?_⟩
    simpa using h_head

/-- The first digits of a whole part are a whole part. -/
theorem IsWhole.take_succ {cs : List Char} {k : Nat} (h : IsWhole cs) :
    IsWhole (cs.take (k + 1)) := by
  obtain ⟨d, ds, rfl⟩ := List.exists_cons_of_ne_nil h.1.1
  refine ⟨⟨by simp, fun c h_c => h.1.2 c (List.mem_of_mem_take h_c)⟩, ?_⟩
  rcases h.2 with h_zero | h_head
  · simp [h_zero]
  · exact .inr (by simpa using h_head)

/-- A zero is written without exponent. -/
def Decimal.IsPlain (d : Decimal) : Prop := d.digits = 0 → d.exponent = 0

/-- Digits with the point behind, among or in front of them are a numeral. -/
theorem Json.isNumeral_positionalDigits {digits : List Char} {exponent : Int} (negative : Bool)
    (h : IsWhole digits) (h_zero : digits = ['0'] → exponent = 0) :
    IsNumeral (signText negative ++ positionalDigits digits exponent) := by
  unfold positionalDigits
  dsimp only
  split
  · next h_exponent =>
    -- the digits and then zeros, and a fraction that is zero
    have h_whole : IsWhole (digits ++ zeros exponent.toNat) := by
      refine h.append_zeros fun h_digits => ?_
      rw [h_zero h_digits]
      rfl
    exact ⟨negative, _, ['.', '0'], [], h_whole, .inr ⟨['0'], rfl, by simp [IsDigits]⟩, .inl rfl,
      by simp⟩
  · next h_exponent =>
    split
    · next h_leading =>
      -- the point is somewhere among the digits
      have h_fraction : IsDigits (digits.drop ((exponent + digits.length - 1).toNat + 1)) := by
        refine ⟨?_, fun c h_c => h.1.2 c (List.mem_of_mem_drop h_c)⟩
        rw [Ne, List.drop_eq_nil_iff]
        omega
      exact ⟨negative, _, _, [], h.take_succ, .inr ⟨_, rfl, h_fraction⟩, .inl rfl,
        by simp only [List.append_assoc, List.append_nil]; rfl⟩
    · next h_leading =>
      -- the digits stand behind the point, with zeros in front of them if need be
      have h_whole : IsWhole ['0'] := ⟨by simp [IsDigits], .inl rfl⟩
      exact ⟨negative, _, _, [], h_whole, .inr ⟨_, rfl, h.1.append_left isDigit_of_mem_zeros⟩,
        .inl rfl, by simp only [List.append_assoc, List.append_nil]; rfl⟩

/-- Digits with the point behind the first one and an exponent are a numeral. -/
theorem Json.isNumeral_scientificDigits {digits : List Char} (negative : Bool) (exponent : Int)
    (h : IsWhole digits) :
    IsNumeral (signText negative ++ scientificDigits decimalLayout digits exponent) := by
  obtain ⟨d, ds, rfl⟩ := List.exists_cons_of_ne_nil h.1.1
  have h_exponent : IsExponent
      ((if exponent + (d :: ds).length - 1 < 0 then decimalLayout.negativeMark
        else decimalLayout.positiveMark).toList ++
          Nat.toDigits 10 (exponent + (d :: ds).length - 1).natAbs) := by
    split
    · exact .inr ⟨['-'], _, .inr (.inr rfl), rfl, isDigits_toDigits _⟩
    · exact .inr ⟨['+'], _, .inr (.inl rfl), rfl, isDigits_toDigits _⟩
  have h_whole : IsWhole [d] := h.take_succ (k := 0)
  cases ds with
  | nil =>
    -- a single digit has no fraction behind it
    exact ⟨negative, [d], [], _, h_whole, .inl rfl, h_exponent, by simp [scientificDigits]⟩
  | cons second rest =>
    have h_fraction : IsDigits (second :: rest) :=
      ⟨by simp, fun c h_c => h.1.2 c (List.mem_cons_of_mem d h_c)⟩
    exact ⟨negative, [d], '.' :: second :: rest, _, h_whole, .inr ⟨_, rfl, h_fraction⟩,
      h_exponent, by simp [scientificDigits]⟩

/-- A decimal is written as a numeral. -/
theorem isNumeral_write {d : Decimal} (h : d.IsPlain) : IsNumeral (decimalLayout.write d) := by
  -- the digits are a single zero only if the number is zero
  have h_zero : Nat.toDigits 10 d.digits = ['0'] → d.exponent = 0 := by
    intro h_digits
    refine h (Decidable.byContradiction fun h_ne => head?_toDigits h_ne ?_)
    rw [h_digits]
    rfl
  -- the sign comes first in both forms
  have h_sign (body : List Char) :
      (if d.negative then '-' :: body else body) = signText d.negative ++ body := by
    cases d.negative <;> rfl
  unfold DecimalLayout.write
  dsimp only
  rw [h_sign]
  split
  · exact isNumeral_positionalDigits d.negative (isWhole_toDigits d.digits) h_zero
  · exact isNumeral_scientificDigits d.negative d.exponent (isWhole_toDigits d.digits)

/-! ### Shortest decimals -/

/-- What is left of a number without the zeros at its end is not zero. -/
theorem Decimal.stripZeros_ne_zero {digits : Nat} (h : digits ≠ 0) (exponent : Int) :
    (stripZeros digits exponent).1 ≠ 0 := by
  fun_induction stripZeros digits exponent with
  | case1 digits exponent h_strip ih => exact ih (by omega)
  | case2 digits exponent h_strip => exact h

/-- A decimal without the zeros at its end is plain. -/
theorem Decimal.isPlain_normalize (d : Decimal) : d.normalize.IsPlain := by
  unfold normalize IsPlain
  split
  · exact fun _ => rfl
  · next h => exact fun h_zero => absurd h_zero (stripZeros_ne_zero h d.exponent)

/-- A decimal that reads back is plain. -/
theorem Double.isPlain_of_readsBack? {x : Double} {digits : Nat} {exponent : Int} {d : Decimal}
    (h : x.readsBack? digits exponent = some d) : d.IsPlain := by
  unfold readsBack? at h
  dsimp only at h
  split at h
  · cases h
    exact Decimal.isPlain_normalize _
  · cases h

/-- So is the one that is taken of the decimals with some number of digits. -/
theorem Double.isPlain_of_onGrid? {x : Double} {count : Nat} {d : Decimal}
    (h : x.onGrid? count = some d) : d.IsPlain := by
  unfold onGrid? at h
  dsimp only at h
  split at h
  · next low high h_low h_high =>
    -- the nearer one, or of two that are as near the even one
    split at h
    · cases h
      exact isPlain_of_readsBack? h_low
    split at h
    · cases h
      exact isPlain_of_readsBack? h_high
    split at h
    · cases h
      exact isPlain_of_readsBack? h_low
    · cases h
      exact isPlain_of_readsBack? h_high
  · next low h_low h_high =>
    cases h
    exact isPlain_of_readsBack? h_low
  · next h_low h_high => exact isPlain_of_readsBack? h

/-- The shortest decimal of a double is plain. -/
theorem Double.isPlain_shortest (x : Double) : x.shortest.IsPlain := by
  unfold shortest
  split
  · exact fun _ => rfl
  · -- if no short decimal reads back, all digits are written
    cases h : ((List.range 17).map (· + 1)).findSome? x.onGrid? with
    | none => exact Decimal.isPlain_normalize _
    | some d =>
      obtain ⟨count, -, h_d⟩ := List.exists_of_findSome?_eq_some h
      exact isPlain_of_onGrid? h_d

/-- An integer is written as a numeral. -/
theorem isNumeral_toDigits (negative : Bool) (n : Nat) :
    IsNumeral (signText negative ++ Nat.toDigits 10 n) :=
  ⟨negative, _, [], [], isWhole_toDigits n, .inl rfl, .inl rfl, by simp⟩

/-- Every number is written as a numeral. -/
theorem Json.Number.isNumeral_write (x : Number) : IsNumeral x.write.toList := by
  cases x with
  | integer z =>
    cases z with
    | ofNat n => simpa [Number.write, signText] using isNumeral_toDigits false n
    | negSucc n => simpa [Number.write, signText] using isNumeral_toDigits true (n + 1)
  | double x => simpa [Number.write] using AsyncMarkers.isNumeral_write x.isPlain_shortest
  | tooLarge =>
    have h_one : IsWhole ['1'] := isWhole_toDigits 1
    have h_exponent : IsExponent ('e' :: ([] ++ Nat.toDigits 10 999)) :=
      .inr ⟨[], _, .inl rfl, rfl, isDigits_toDigits 999⟩
    exact ⟨false, ['1'], [], _, h_one, .inl rfl, h_exponent, rfl⟩

/-! ### Natural numbers -/

/-- More digits make no smaller number. -/
theorem le_foldl_digits (word : Nat) (digits : List Nat) :
    word ≤ digits.foldl (fun n digit => 10 * n + digit) word := by
  induction digits generalizing word with
  | nil => exact Nat.le_refl word
  | cons digit digits ih => exact Nat.le_trans (by omega) (ih (10 * word + digit))

/-- Digits are gathered without rest as long as the number they spell fits. -/
theorem Numeral.gather_eq {word : Nat} {digits : List Nat}
    (h : digits.foldl (fun n digit => 10 * n + digit) word < UInt64.size) :
    gather word digits = (digits.foldl (fun n digit => 10 * n + digit) word, 0) := by
  induction digits generalizing word with
  | nil => rfl
  | cons digit digits ih =>
    -- the number that is spelled so far is no larger than that which is spelled in the end
    have h_fits := Nat.lt_of_le_of_lt (le_foldl_digits (10 * word + digit) digits) h
    rw [gather, if_pos h_fits, ih h, List.foldl_cons]

/-- A natural number that fits into a word is read as it was written. -/
theorem Json.number?_toDigits {n : Nat} (h : n < UInt64.size) :
    number? (Nat.toDigits 10 n) = some (.integer n) := by
  have h_numeral : numeral? (signText false ++ (Nat.toDigits 10 n ++ [])) = _ :=
    numeral?_eq false (isWhole_toDigits n) (by simp) rfl rfl
  -- the digits spell the number
  have h_value :
      ((Nat.toDigits 10 n).map digitValue).foldl (fun n digit => 10 * n + digit) 0 = n := by
    rw [List.foldl_map]
    exact Nat.ofDigitChars_toDigits (by decide) (by decide)
  have h_gather : Numeral.gather 0 ((Nat.toDigits 10 n).map digitValue) = (n, 0) := by
    rw [Numeral.gather_eq (by rw [h_value]; exact h), h_value]
  rw [List.append_nil] at h_numeral
  simp [number?, signText] at h_numeral ⊢
  rw [h_numeral]
  simp [Number.ofNumeral, Numeral.toInt?, h_gather]

end AsyncMarkers
