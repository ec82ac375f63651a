import Mathlib.Data.List.TakeWhile
import Mathlib.Data.Nat.Digits.Defs
import Mathlib.Data.Rat.Floor
import Mathlib.Tactic.IntervalCases

/-!
# Numbers as decimal text

What `printf` writes for integers (`intText`) and for reals with a fixed number
of decimals (`fixedText`), and how such a text is read as a number
(`parseNumber`). Reading an integer gives it back (`parseNumber_intText`);
reading a real gives it rounded to its decimals (`parseNumber_fixedText`).
`readInt` reads an integer of a machine type, which may not have room for what
the text says.
-/

namespace Nas.Lib

def digitValue (c : Char) : Nat := c.toNat - 48

def natValue (cs : List Char) : Nat := cs.foldl (fun v c => 10 * v + digitValue c) 0

def natText (n : Nat) : List Char :=
  if n = 0 then ['0'] else ((Nat.digits 10 n).map Nat.digitChar).reverse

def fracText : Nat → Nat → List Char
  | 0, _ => []
  | k + 1, n => fracText k (n / 10) ++ [Nat.digitChar (n % 10)]

/-- `%d` -/
def intText (n : Int) : List Char := if n < 0 then '-' :: natText n.natAbs else natText n.natAbs

/-- The nearest integer, and of two the even one. -/
def roundHalfEven (x : ℚ) : Int :=
  if x - ⌊x⌋ < 1 / 2 then ⌊x⌋
  else if 1 / 2 < x - ⌊x⌋ then ⌊x⌋ + 1
  else if ⌊x⌋ % 2 = 0 then ⌊x⌋ else ⌊x⌋ + 1

def roundTo (k : Nat) (x : ℚ) : ℚ := (roundHalfEven (x * 10 ^ k) : ℚ) / 10 ^ k

/-- `%.kf` -/
def fixedText (k : Nat) (x : ℚ) : List Char :=
  let n := (roundHalfEven (x * 10 ^ k)).natAbs
  let body := natText (n / 10 ^ k) ++ '.' :: fracText k n
  if x < 0 then '-' :: body else body

def parseUnsigned (cs : List Char) : Option ℚ :=
  match cs.dropWhile Char.isDigit with
  | [] => if cs = [] then none else some (natValue cs)
  | '.' :: frac =>
    if frac.all Char.isDigit then
      some ((natValue (cs.takeWhile Char.isDigit ++ frac) : ℚ) / 10 ^ frac.length)
    else none
  | _ => none

def parseNumber : List Char → Option ℚ
  | '-' :: cs => (parseUnsigned cs).map (- ·)
  | cs => parseUnsigned cs

/-- Digits are read until one would lead above the limit, which is then the result, or until
another character comes. -/
def readDigits (limit : Nat) : Nat → List Char → Nat
  | v, [] => v
  | v, c :: cs =>
    if c.isDigit then
      if 10 * v + digitValue c ≤ limit then readDigits limit (10 * v + digitValue c) cs else limit
    else v

def readInt (lo hi : Int) (text : List Char) : Int :=
  match text.dropWhile Char.isWhitespace with
  | '-' :: cs => -readDigits lo.natAbs 0 cs
  | '+' :: cs => readDigits hi.natAbs 0 cs
  | cs => readDigits hi.natAbs 0 cs

/-! ## Digits -/

theorem digitChar_isDigit {d : Nat} (h : d < 10) : (Nat.digitChar d).isDigit = true := by
  interval_cases d <;> rfl

theorem digitValue_digitChar {d : Nat} (h : d < 10) : digitValue (Nat.digitChar d) = d := by
  interval_cases d <;> rfl

theorem natText_isDigit (n : Nat) : ∀ c ∈ natText n, c.isDigit = true := by
  unfold natText
  split
  · simp
  · intro c hc
    obtain ⟨d, hd, rfl⟩ := List.mem_map.mp (List.mem_reverse.mp hc)
    exact digitChar_isDigit (Nat.digits_lt_base (by decide) hd)

theorem natText_ne_nil (n : Nat) : natText n ≠ [] := by
  unfold natText
  split
  · simp
  · rename_i hn
    simpa [Nat.digits_eq_nil_iff_eq_zero] using hn

theorem fracText_isDigit (k n : Nat) : ∀ c ∈ fracText k n, c.isDigit = true := by
  induction k generalizing n with
  | zero => simp [fracText]
  | succ k ih =>
    intro c hc
    rcases List.mem_append.mp hc with hc | hc
    · exact ih _ c hc
    · rw [List.mem_singleton.mp hc]
      exact digitChar_isDigit (Nat.mod_lt _ (by decide))

@[simp] theorem length_fracText (k n : Nat) : (fracText k n).length = k := by
  induction k generalizing n with
  | zero => rfl
  | succ k ih => simp [fracText, ih]

theorem natValue_natText (n : Nat) : natValue (natText n) = n := by
  unfold natText
  split
  · rename_i hn
    rw [hn]
    rfl
  · have hvalue : ∀ ds : List Nat, (∀ d ∈ ds, d < 10) →
        natValue (ds.map Nat.digitChar).reverse = Nat.ofDigits 10 ds := by
      intro ds hds
      induction ds with
      | nil => rfl
      | cons d ds ih =>
        have ih := ih fun x hx => hds x (List.mem_cons_of_mem _ hx)
        unfold natValue at ih ⊢
        rw [List.map_cons, List.reverse_cons, List.foldl_append, ih, Nat.ofDigits_cons,
          List.foldl_cons, List.foldl_nil, digitValue_digitChar (hds d List.mem_cons_self)]
        omega
    rw [hvalue _ fun d hd => Nat.digits_lt_base (by decide) hd, Nat.ofDigits_digits]

/-- Appending the last `k` digits of a number shifts what was there. -/
theorem natValue_append_fracText (cs : List Char) (k n : Nat) :
    natValue (cs ++ fracText k n) = natValue cs * 10 ^ k + n % 10 ^ k := by
  induction k generalizing n with
  | zero => simp [fracText, Nat.mod_one]
  | succ k ih =>
    have hd : n % 10 < 10 := Nat.mod_lt _ (by decide)
    have hstep : natValue (cs ++ fracText (k + 1) n) =
        10 * natValue (cs ++ fracText k (n / 10)) + n % 10 := by
      simp only [natValue, fracText, List.foldl_append, List.foldl_cons, List.foldl_nil,
        digitValue_digitChar hd]
    have hmod : n % 10 ^ (k + 1) = 10 * (n / 10 % 10 ^ k) + n % 10 := by
      rw [Nat.pow_succ', Nat.mod_mul, Nat.add_comm]
    rw [hstep, ih, hmod, Nat.pow_succ']
    ring

/-! ## Round trips -/

theorem parseUnsigned_natText (n : Nat) : parseUnsigned (natText n) = some (n : ℚ) := by
  have hdrop : (natText n).dropWhile Char.isDigit = [] :=
    List.dropWhile_eq_nil_iff.mpr (natText_isDigit n)
  rw [parseUnsigned, hdrop]
  simp only [natText_ne_nil, if_false, natValue_natText]

theorem parseUnsigned_fixed (k n : Nat) :
    parseUnsigned (natText (n / 10 ^ k) ++ '.' :: fracText k n) = some ((n : ℚ) / 10 ^ k) := by
  have hdigits := natText_isDigit (n / 10 ^ k)
  have hdrop : (natText (n / 10 ^ k) ++ '.' :: fracText k n).dropWhile Char.isDigit =
      '.' :: fracText k n := by
    rw [List.dropWhile_append_of_pos hdigits]
    rfl
  have htake : (natText (n / 10 ^ k) ++ '.' :: fracText k n).takeWhile Char.isDigit =
      natText (n / 10 ^ k) := by
    rw [List.takeWhile_append_of_pos hdigits]
    exact List.append_nil _
  have hvalue : natValue (natText (n / 10 ^ k) ++ fracText k n) = n := by
    rw [natValue_append_fracText, natValue_natText, Nat.mul_comm]
    exact Nat.div_add_mod ..
  rw [parseUnsigned, hdrop, htake]
  show (if (fracText k n).all Char.isDigit then
    some ((natValue (natText (n / 10 ^ k) ++ fracText k n) : ℚ) / 10 ^ (fracText k n).length) else none) = _
  rw [if_pos (List.all_eq_true.mpr (fracText_isDigit k n)), hvalue, length_fracText]

/-- A text that begins with a digit has no sign. -/
theorem parseNumber_natText_append (n : Nat) (cs : List Char) :
    parseNumber (natText n ++ cs) = parseUnsigned (natText n ++ cs) := by
  cases h : natText n with
  | nil => exact absurd h (natText_ne_nil n)
  | cons c ds =>
    have hc : c.isDigit = true := natText_isDigit n c (by rw [h]; exact List.mem_cons_self)
    rw [List.cons_append, parseNumber]
    rintro cs' heq
    rw [(List.cons.inj heq).1] at hc
    exact absurd hc (by decide)

theorem parseNumber_intText (n : Int) : parseNumber (intText n) = some (n : ℚ) := by
  unfold intText
  split
  · rename_i hn
    rw [parseNumber, parseUnsigned_natText, Option.map_some]
    have habs : (n.natAbs : ℚ) = -(n : ℚ) := by
      rw [← Int.cast_natCast, Int.ofNat_natAbs_of_nonpos hn.le, Int.cast_neg]
    rw [habs, neg_neg]
  · rename_i hn
    have happ := parseNumber_natText_append n.natAbs []
    rw [List.append_nil] at happ
    rw [happ, parseUnsigned_natText]
    rw [← Int.cast_natCast, Int.natAbs_of_nonneg (not_lt.mp hn)]

theorem roundHalfEven_nonneg {x : ℚ} (h : 0 ≤ x) : 0 ≤ roundHalfEven x := by
  have hf : 0 ≤ ⌊x⌋ := Int.floor_nonneg.mpr h
  unfold roundHalfEven
  split_ifs <;> omega

theorem roundHalfEven_nonpos {x : ℚ} (h : x < 0) : roundHalfEven x ≤ 0 := by
  have hf : ⌊x⌋ < 0 := Int.floor_lt.mpr (by simpa using h)
  unfold roundHalfEven
  split_ifs <;> omega

theorem parseNumber_fixedText (k : Nat) (x : ℚ) :
    parseNumber (fixedText k x) = some (roundTo k x) := by
  have hpow : (0 : ℚ) < 10 ^ k := by positivity
  simp only [fixedText, roundTo]
  split
  · rename_i hx
    have hneg : roundHalfEven (x * 10 ^ k) ≤ 0 :=
      roundHalfEven_nonpos (mul_neg_of_neg_of_pos hx hpow)
    have hround : (roundHalfEven (x * 10 ^ k) : ℚ) =
        -((roundHalfEven (x * 10 ^ k)).natAbs : ℚ) := by
      rw [← Int.cast_natCast, Int.ofNat_natAbs_of_nonpos hneg, Int.cast_neg, neg_neg]
    rw [parseNumber, parseUnsigned_fixed, Option.map_some, hround, neg_div]
  · rename_i hx
    have hpos : 0 ≤ roundHalfEven (x * 10 ^ k) :=
      roundHalfEven_nonneg (mul_nonneg (not_lt.mp hx) hpow.le)
    have hround : (roundHalfEven (x * 10 ^ k) : ℚ) =
        ((roundHalfEven (x * 10 ^ k)).natAbs : ℚ) := by
      rw [← Int.cast_natCast, Int.natAbs_of_nonneg hpos]
    rw [parseNumber_natText_append, parseUnsigned_fixed, hround]

theorem readDigits_of_le {limit v : Nat} {cs : List Char} (hcs : ∀ c ∈ cs, c.isDigit = true)
    (hle : cs.foldl (fun v c => 10 * v + digitValue c) v ≤ limit) :
    readDigits limit v cs = cs.foldl (fun v c => 10 * v + digitValue c) v := by
  have hmono : ∀ (cs : List Char) (v : Nat), v ≤ cs.foldl (fun v c => 10 * v + digitValue c) v := by
    intro cs
    induction cs with
    | nil => exact fun v => le_refl v
    | cons c cs ih => exact fun v => le_trans (by omega) (ih (10 * v + digitValue c))
  induction cs generalizing v with
  | nil => rfl
  | cons c cs ih =>
    have hfirst : 10 * v + digitValue c ≤ limit := le_trans (hmono cs _) hle
    rw [readDigits, if_pos (hcs c List.mem_cons_self), if_pos hfirst]
    exact ih (fun c hc => hcs c (List.mem_cons_of_mem _ hc)) hle

theorem readDigits_natText {limit n : Nat} (h : n ≤ limit) : readDigits limit 0 (natText n) = n := by
  have hvalue : (natText n).foldl (fun v c => 10 * v + digitValue c) 0 = n := natValue_natText n
  rw [readDigits_of_le (natText_isDigit n) (by rwa [hvalue]), hvalue]

/-- An integer that its type has room for is read as it was written. -/
theorem readInt_intText {lo hi n : Int} (hlo : lo ≤ n) (hhi : n ≤ hi) : readInt lo hi (intText n) = n := by
  unfold intText
  split
  case isTrue hneg =>
    have hdrop : ('-' :: natText n.natAbs).dropWhile Char.isWhitespace = '-' :: natText n.natAbs :=
      List.dropWhile_cons_of_neg (by decide)
    rw [readInt, hdrop]
    show -((readDigits lo.natAbs 0 (natText n.natAbs) : Nat) : Int) = n
    rw [readDigits_natText (by omega)]
    omega
  case isFalse hpos =>
    have hread := readDigits_natText (show n.natAbs ≤ hi.natAbs by omega)
    cases htext : natText n.natAbs with
    | nil => exact absurd htext (natText_ne_nil _)
    | cons c cs =>
      have hc : c.isDigit = true := natText_isDigit n.natAbs c (htext ▸ List.mem_cons_self)
      have hspace : c.isWhitespace = false := by
        rw [Bool.eq_false_iff]
        intro hw
        simp only [Char.isWhitespace, Bool.or_eq_true, decide_eq_true_eq] at hw
        rcases hw with ((rfl | rfl) | rfl) | rfl <;> exact absurd hc (by decide)
      rw [htext] at hread
      have hdrop : (c :: cs).dropWhile Char.isWhitespace = c :: cs :=
        List.dropWhile_cons_of_neg (by rw [hspace]; nofun)
      rw [readInt, hdrop]
      split
      · rename_i heq
        rw [(List.cons.inj heq).1] at hc
        exact absurd hc (by decide)
      · rename_i heq
        rw [(List.cons.inj heq).1] at hc
        exact absurd hc (by decide)
      · rw [hread]
        omega

/-! ## Characters -/

def isNumeral (c : Char) : Bool := c.isDigit || c == '-' || c == '.'

theorem isNumeral_of_isDigit {c : Char} (h : c.isDigit = true) : isNumeral c = true := by
  simp [isNumeral, h]

theorem intText_isNumeral (n : Int) : ∀ c ∈ intText n, isNumeral c = true := by
  have hdigits : ∀ c ∈ natText n.natAbs, isNumeral c = true :=
    fun c hc => isNumeral_of_isDigit (natText_isDigit _ c hc)
  unfold intText
  split
  · exact List.forall_mem_cons.mpr ⟨rfl, hdigits⟩
  · exact hdigits

theorem fixedText_isNumeral (k : Nat) (x : ℚ) : ∀ c ∈ fixedText k x, isNumeral c = true := by
  have hbody : ∀ n, ∀ c ∈ natText (n / 10 ^ k) ++ '.' :: fracText k n, isNumeral c = true := by
    intro n c hc
    rcases List.mem_append.mp hc with hc | hc
    · exact isNumeral_of_isDigit (natText_isDigit _ c hc)
    · rcases List.mem_cons.mp hc with rfl | hc
      · rfl
      · exact isNumeral_of_isDigit (fracText_isDigit _ _ c hc)
  simp only [fixedText]
  split
  · exact List.forall_mem_cons.mpr ⟨rfl, hbody _⟩
  · exact hbody _

end Nas.Lib
