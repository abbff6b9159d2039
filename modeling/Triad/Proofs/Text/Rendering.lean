import Mathlib.Data.Nat.Digits.Defs
import Triad.Proofs.Meaning.Whole
import Triad.Proofs.Text.Numeral

/-!
# Integers and how they are written

What the grammar of integers answers is a function of the text at hand
(`Numeral.verdict`): it depends on whether a minus sign is there, on the
longest run of digits behind it, and on the integer that these denote.  None
of this mentions a parser, and `Numeral.magnitude` is not computed the way the
grammar does it: every digit counts by the power of ten of its place.

* `Reading.integer_eq_verdict`: the reading of the grammar is the verdict.
* `Numeral.ofInt`: an integer is written as a numeral, behind any number of
  zeros, and the numeral denotes it (`Numeral.value_ofInt`).
* `integer_reads_numeral`: both together, for the parser.
-/

namespace Triad

/-! ## Places -/

/-- A place from which text that comes next has been read is a place of the
same text. -/
theorem Cursor.Valid.forward {τ : Type} [Width τ] {c : Cursor τ} (valid : c.Valid) {s t : List τ}
    (hc : c.rest = s ++ t) : (c.forward s).Valid := by
  obtain ⟨consumed, hinput, hwidth⟩ := valid
  refine ⟨consumed ++ s, ?_, ?_⟩
  · show c.input = consumed ++ s ++ (c.forward s).rest
    rw [Cursor.rest_forward hc, hinput, hc, List.append_assoc]
  · rw [Width.total_append, hwidth]
    rfl

/-- Behind every place of a text that fits in memory a repetition has room. -/
theorem Room.of_valid {c : TextCursor} (valid : c.Valid)
    (haddressable : Text.Addressable (String.ofList c.input)) {rounds : Nat}
    (hrounds : c.rest.length < rounds) : Room rounds c := by
  obtain ⟨consumed, hinput, -⟩ := valid
  have hlength : c.rest.length ≤ c.input.length := by
    rw [hinput, List.length_append]
    omega
  have hstart := Room.start haddressable (Nat.lt_succ_self _)
  rw [String.toList_ofList] at hstart
  exact ⟨hrounds, Nat.lt_of_le_of_lt hlength hstart.limit⟩

namespace Numeral

/-! ## The value of digits -/

/-- The natural number that decimal digits denote.  Every digit counts by the
power of ten of its place. -/
def magnitude (ds : List Char) : Nat :=
  Nat.ofDigits 10 (ds.reverse.map fun x => x.toNat - '0'.toNat)

/-- Reading the digits from the left, the one at the head is worth most. -/
theorem magnitude_cons (x : Char) (ds : List Char) :
    magnitude (x :: ds) = 10 ^ ds.length * (x.toNat - '0'.toNat) + magnitude ds := by
  unfold magnitude
  rw [List.reverse_cons, List.map_append, Nat.ofDigits_append, List.length_map,
    List.length_reverse, List.map_singleton, Nat.ofDigits_singleton, Nat.add_comm]

/-- The value of a run of digits is the sum of what its digits are worth. -/
theorem decimal_value_eq (ds : List Char) : Decimal.value ds = magnitude ds := by
  induction ds with
  | nil => rfl
  | cons x ds ih =>
    calc Decimal.value (x :: ds)
        = Nat.ofDigitChars 10 ds (x.toNat - '0'.toNat) := by
          rw [Decimal.value, Nat.ofDigitChars_cons, Nat.mul_zero, Nat.zero_add]
      _ = 10 ^ ds.length * (x.toNat - '0'.toNat) + Decimal.value ds :=
          Nat.ofDigitChars_eq_ofDigitChars_zero
      _ = magnitude (x :: ds) := by rw [ih, magnitude_cons]

/-! ## The numeral at the head of a text -/

/-- Is there a minus sign at the head? -/
def signed (s : List Char) : Bool := s.head? = some '-'

/-- The longest run of digits behind a minus sign that is there or not. -/
def run (s : List Char) : List Char := (if signed s then s.tail else s).takeWhile Char.isDigit

/-- The minus sign, if it is there, and the digits. -/
def head (s : List Char) : List Char := if signed s then '-' :: run s else run s

/-- The integer that sign and digits denote. -/
def denoted (s : List Char) : Int :=
  if signed s then -(magnitude (run s) : Int) else (magnitude (run s) : Int)

/-- What a parser of integers owes at a place.  Without digits this is an error if
a sign is there, and else *no match*.  With digits it is the integer that they
denote and the place behind them, if the integer is a signed 64-bit word, and
else an error that tells the side. -/
def verdict (c : TextCursor) : Outcome ParseError ParseError TextCursor Int :=
  if run c.rest = [] then
    if signed c.rest then .error .incomplete else .failure .noMatch
  else if -2 ^ 63 ≤ denoted c.rest ∧ denoted c.rest ≤ 2 ^ 63 - 1 then
    .success (denoted c.rest) (c.forward (head c.rest))
  else
    .error (.fatal (if signed c.rest then "number too small to fit in target type"
      else "number too large to fit in target type"))

/-- A run of digits ends where no digit follows. -/
theorem takeWhile_run {s t : List Char} (hs : ∀ x ∈ s, x.isDigit = true)
    (ht : Text.Apart Char.isDigit t) : (s ++ t).takeWhile Char.isDigit = s := by
  rw [List.takeWhile_append_of_pos hs, ht.takeWhile_eq_nil, List.append_nil]

section Text

variable {n : Numeral} {t : List Char}

theorem signed_text : signed (n.text ++ t) = n.negative := by
  obtain ⟨negative, ds, hnonempty, hdecimal⟩ := n
  cases negative with
  | true => rfl
  | false =>
    cases ds with
    | nil => exact absurd rfl hnonempty
    | cons x ds =>
      have hx : x ≠ '-' := isDigit_ne_minus (hdecimal x List.mem_cons_self)
      simp [signed, text, hx]

theorem run_text (ht : Text.Apart Char.isDigit t) : run (n.text ++ t) = n.digits := by
  unfold run
  rw [signed_text]
  obtain ⟨negative, ds, hnonempty, hdecimal⟩ := n
  cases negative with
  | true => exact takeWhile_run hdecimal ht
  | false => exact takeWhile_run hdecimal ht

theorem head_text (ht : Text.Apart Char.isDigit t) : head (n.text ++ t) = n.text := by
  unfold head
  rw [signed_text, run_text ht]
  rfl

theorem denoted_text (ht : Text.Apart Char.isDigit t) : denoted (n.text ++ t) = n.value := by
  unfold denoted
  rw [signed_text, run_text ht, ← decimal_value_eq]
  rfl

end Text

theorem run_of_sign {t : List Char} (ht : Text.Apart Char.isDigit t) : run ('-' :: t) = [] :=
  ht.takeWhile_eq_nil

theorem signed_of_apart {s : List Char} (hs : Text.Apart (· = '-') s) : signed s = false := by
  cases s with
  | nil => rfl
  | cons x s => simpa [signed] using hs x rfl

theorem run_of_apart {s : List Char} (hs : Text.Apart isStart s) : run s = [] := by
  obtain ⟨hsign, hdigit⟩ := apart_isStart_iff.1 hs
  rw [run, signed_of_apart hsign]
  exact hdigit.takeWhile_eq_nil

/-- The head of a text is a part of it. -/
theorem exists_eq_head_append (s : List Char) : ∃ t, s = head s ++ t := by
  rcases exists_or s with ⟨n, t, rfl, ht⟩ | ⟨t, rfl, ht⟩ | hs
  · exact ⟨t, by rw [head_text ht]⟩
  · refine ⟨t, ?_⟩
    show '-' :: t = '-' :: run ('-' :: t) ++ t
    rw [run_of_sign ht]
    rfl
  · refine ⟨s, ?_⟩
    rw [head, signed_of_apart (apart_isStart_iff.1 hs).1, run_of_apart hs]
    rfl

/-! ## The verdict, case by case -/

variable {c : TextCursor} {n : Numeral} {t : List Char}

theorem verdict_of_sign (hc : c.rest = '-' :: t) (ht : Text.Apart Char.isDigit t) :
    verdict c = .error .incomplete := by
  have hrun : run c.rest = [] := by
    rw [hc]
    exact run_of_sign ht
  have hsigned : signed c.rest = true := by
    rw [hc]
    rfl
  rw [verdict, if_pos hrun, if_pos hsigned]

theorem verdict_of_apart (hc : Text.Apart isStart c.rest) : verdict c = .failure .noMatch := by
  have hsigned : ¬ signed c.rest = true := by
    rw [signed_of_apart (apart_isStart_iff.1 hc).1]
    decide
  rw [verdict, if_pos (run_of_apart hc), if_neg hsigned]

theorem run_ne_nil (hc : c.rest = n.text ++ t) (ht : Text.Apart Char.isDigit t) :
    run c.rest ≠ [] := by
  rw [hc, run_text ht]
  exact n.nonempty

theorem verdict_of_fits (hc : c.rest = n.text ++ t) (ht : Text.Apart Char.isDigit t)
    (hfits : Word.Fits n.value) : verdict c = .success n.value (c.forward n.text) := by
  have hdenoted : denoted c.rest = n.value := by rw [hc, denoted_text ht]
  have hhead : head c.rest = n.text := by rw [hc, head_text ht]
  rw [verdict, if_neg (run_ne_nil hc ht), hdenoted, hhead]
  exact if_pos hfits

theorem verdict_of_overflow (hc : c.rest = n.text ++ t) (ht : Text.Apart Char.isDigit t)
    (hfits : ¬ Word.Fits n.value) : verdict c = .error (.fatal n.overflow.message) := by
  have hdenoted : denoted c.rest = n.value := by rw [hc, denoted_text ht]
  have hsigned : signed c.rest = n.negative := by rw [hc, signed_text]
  rw [verdict, if_neg (run_ne_nil hc ht), hdenoted, hsigned]
  have hmessage : n.overflow.message =
      if n.negative then "number too small to fit in target type"
      else "number too large to fit in target type" := by
    unfold overflow
    cases n.negative <;> rfl
  rw [hmessage]
  exact if_neg hfits

end Numeral

theorem Reading.integer_eq_verdict {rounds : Nat} {c : TextCursor} (hroom : Room rounds c) :
    integer rounds c = .ok (Numeral.verdict c) := by
  rcases Numeral.exists_or c.rest with ⟨n, t, hc, ht⟩ | ⟨t, hc, ht⟩ | hc
  · by_cases hfits : Word.Fits n.value
    · rw [integer_of_fits hroom hc ht hfits, Numeral.verdict_of_fits hc ht hfits]
    · rw [integer_of_overflow hroom hc ht hfits, Numeral.verdict_of_overflow hc ht hfits]
  · rw [integer_of_sign hroom hc ht, Numeral.verdict_of_sign hc ht]
  · rw [integer_of_apart hroom hc, Numeral.verdict_of_apart hc]

/-! ## Writing integers -/

namespace Numeral

/-- The integer in decimal, with some zeros between the sign and the digits. -/
def ofInt (zeros : Nat) (k : Int) : Numeral where
  negative := k < 0
  digits := List.replicate zeros '0' ++ Nat.toDigits 10 k.natAbs
  nonempty := by simp [Nat.toDigits_ne_nil]
  decimal := by
    intro x hx
    rcases List.mem_append.1 hx with hzero | hdigit
    · rw [List.eq_of_mem_replicate hzero]
      rfl
    · exact Nat.isDigit_of_mem_toDigits (by decide) (by decide) hdigit

/-- Without more zeros this is how integers are displayed. -/
theorem text_ofInt_zero (k : Int) : (ofInt 0 k).text = (toString k).toList := by
  cases k with
  | ofNat m =>
    have hnegative : (ofInt 0 (.ofNat m)).negative = false :=
      decide_eq_false (Int.not_lt.2 (Int.natCast_nonneg m))
    rw [text, hnegative]
    show Nat.toDigits 10 m = (Nat.repr m).toList
    exact Nat.toList_repr.symm
  | negSucc m =>
    have hnegative : (ofInt 0 (.negSucc m)).negative = true :=
      decide_eq_true (Int.negSucc_lt_zero m)
    rw [text, hnegative]
    show '-' :: Nat.toDigits 10 (m + 1) = ("-" ++ Nat.repr (m + 1)).toList
    rw [String.toList_append, Nat.toList_repr]
    rfl

/-- However many zeros there are, what is written denotes the integer. -/
theorem value_ofInt (zeros : Nat) (k : Int) : (ofInt zeros k).value = k := by
  have hvalue : Decimal.value (ofInt zeros k).digits = k.natAbs := by
    show Nat.ofDigitChars 10 (List.replicate zeros '0' ++ Nat.toDigits 10 k.natAbs) 0 = k.natAbs
    rw [Nat.ofDigitChars_append, Nat.ofDigitChars_replicate_zero, Nat.mul_zero,
      Nat.ofDigitChars_ten_toDigits]
  unfold value Decimal.denotes
  rw [hvalue]
  show (if decide (k < 0) = true then -(k.natAbs : Int) else k.natAbs) = k
  by_cases hk : k < 0
  · rw [if_pos (decide_eq_true hk)]
    omega
  · rw [if_neg (by simpa using hk)]
    omega

end Numeral

/-! ## Parsing integers -/

section Parsing

variable {N : Payloads → Type → Type} (rules : Rules TextCursor N)

/-- From a place of a text that fits in memory, the parser of integers returns
the verdict on what is there.  The place behind the sign and the digits is a
place of the text as well, and the rest of the text is behind it.

Hence every word that is displayed in front of a text without a digit at its
head, behind any number of zeros, is read, and exactly that text is left. -/
theorem integer_reads_numeral {c : TextCursor} (valid : c.Valid)
    (haddressable : Text.Addressable (String.ofList c.input)) :
    let parse := fun limits =>
      (Grammar.integer : Grammar TextCursor N ParseError.payloads Int).parse rules limits c
    Returns parse (Numeral.verdict c) ∧
      ((c.forward (Numeral.head c.rest)).Valid ∧
        c.rest = Numeral.head c.rest ++ (c.forward (Numeral.head c.rest)).rest) ∧
      ∀ k : Int, Word.Fits k →
        (Numeral.ofInt 0 k).text = (toString k).toList ∧
        ∀ (zeros : Nat) (t : List Char), Text.Apart Char.isDigit t →
          c.rest = (Numeral.ofInt zeros k).text ++ t →
            ∃ d, Returns parse (.success k d) ∧ d.rest = t ∧ d.Valid ∧ d.input = c.input := by
  have hreturns : Returns
      (fun limits =>
        (Grammar.integer : Grammar TextCursor N ParseError.payloads Int).parse rules limits c)
      (Numeral.verdict c) := by
    refine ⟨⟨c.rest.length + 1, 0⟩, fun limits hlimits s => ?_⟩
    have hroom : Room limits.rounds c := Room.of_valid valid haddressable hlimits.1
    rw [Grammar.parse_result]
    show (Grammar.integer : Grammar TextCursor N ParseError.payloads Int).reading _ _ c = _
    rw [Grammar.reading_integer]
    exact Reading.integer_eq_verdict hroom
  refine ⟨hreturns, ?behind, fun k hk => ⟨Numeral.text_ofInt_zero k, fun zeros t ht hc => ?written⟩⟩
  case behind =>
    obtain ⟨t, ht⟩ := Numeral.exists_eq_head_append c.rest
    refine ⟨valid.forward ht, ?_⟩
    rw [Cursor.rest_forward ht]
    exact ht
  case written =>
    have hvalue := Numeral.value_ofInt zeros k
    have hverdict := Numeral.verdict_of_fits hc ht (by rwa [hvalue])
    rw [hvalue] at hverdict
    rw [hverdict] at hreturns
    exact ⟨_, hreturns, Cursor.rest_forward hc, valid.forward hc, rfl⟩

end Parsing

/-- The least word, behind two zeros, in front of an exclamation mark. -/
theorem integer_reads_numeral_of_least :
    let c : TextCursor := ⟨2, "-009223372036854775808!".toList, "é-009223372036854775808!".toList⟩
    Numeral.verdict c = .success (-2 ^ 63) ⟨24, ['!'], c.input⟩ ∧
      Returns (fun limits => (Grammar.integer : Grammar TextCursor NoNames _ Int).parse Rules.none
        limits c) (Numeral.verdict c) ∧
      ∃ d, Returns (fun limits => (Grammar.integer : Grammar TextCursor NoNames _ Int).parse
        Rules.none limits c) (.success (-2 ^ 63) d) ∧ d.rest = ['!'] := by
  intro c
  have valid : c.Valid := ⟨['é'], by decide, by decide⟩
  obtain ⟨hverdict, -, hwritten⟩ := integer_reads_numeral Rules.none valid (by decide)
  obtain ⟨-, hzeros⟩ := hwritten (-2 ^ 63) (by decide)
  obtain ⟨d, hd, hrest, -⟩ := hzeros 2 ['!'] (Text.apart_cons rfl) (by decide)
  exact ⟨by decide, hverdict, d, hd, hrest⟩

end Triad
