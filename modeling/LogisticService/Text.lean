import Mathlib.Data.Int.Init
import Mathlib.Data.List.TakeWhile

/-!
# C integers and text

The conversions of the C and C++ standard libraries that the server applies to
message text, and the exceptions the standard library and jsoncpp throw. An
`int` is an `Int` within `INT_MIN .. INT_MAX`; `toInt32` is what is left of a
number that does not fit.
-/

namespace LogisticService

def INT_MAX : Int := 2147483647

def INT_MIN : Int := -2147483648

/-- The number fits in a C `int`. -/
def IsInt (n : Int) : Prop := INT_MIN ≤ n ∧ n ≤ INT_MAX

instance (n : Int) : Decidable (IsInt n) := inferInstanceAs (Decidable (_ ∧ _))

/-- The low 32 bits of a number, read as a signed `int`. -/
def toInt32 (n : Int) : Int := n.bmod 4294967296

theorem toInt32_of_isInt {n : Int} (h : IsInt n) : toInt32 n = n := by
  obtain ⟨hlo, hhi⟩ := h
  unfold INT_MIN at hlo
  unfold INT_MAX at hhi
  unfold toInt32
  rw [Int.bmod_eq_of_le] <;> omega

theorem toInt32_isInt (n : Int) : IsInt (toInt32 n) := by
  have hlo := @Int.le_bmod n 4294967296 (by decide)
  have hhi := @Int.bmod_lt n 4294967296 (by decide)
  unfold IsInt toInt32 INT_MIN INT_MAX
  omega

/-- What leaves a function without a value: an exception that no caller catches. -/
inductive Exn
  /-- `Json::LogicError` or `Json::RuntimeError`. -/
  | json
  /-- `std::invalid_argument`, thrown by `std::stoi`. -/
  | invalidArgument
  /-- `std::out_of_range`, thrown by `std::stoi` and by `std::unordered_map::at`. -/
  | outOfRange
deriving DecidableEq, Repr

/-! ## Decimal text -/

/-- `isspace` in the C locale. -/
def isSpace (c : Char) : Bool := c = ' ' || ('\t' ≤ c && c ≤ '\r')

/-- The value of the longest prefix of decimal digits, if there is a digit. -/
def digitRun (cs : List Char) : Option Nat :=
  match cs.takeWhile Char.isDigit with
  | [] => none
  | ds => some (Nat.ofDigitChars 10 ds 0)

/-- The number at the start of a text as `strtol` reads it in base ten, before
any limit is applied: blanks, a sign, digits. -/
def decimalPrefix (s : String) : Option Int :=
  match s.toList.dropWhile isSpace with
  | '-' :: cs => (digitRun cs).map fun n : Nat => -(n : Int)
  | '+' :: cs => (digitRun cs).map fun n : Nat => (n : Int)
  | cs => (digitRun cs).map fun n : Nat => (n : Int)

/-- `std::stoi`. -/
def stoi (s : String) : Except Exn Int :=
  match decimalPrefix s with
  | none => .error .invalidArgument
  | some n => if IsInt n then .ok n else .error .outOfRange

/-- `atoi` as glibc has it: `strtol`, which saturates at 64 bits, cut to an `int`. -/
def atoi (s : String) : Int :=
  match decimalPrefix s with
  | none => 0
  | some n => toInt32 (max (-9223372036854775808) (min 9223372036854775807 n))

/-- `std::transform` with `::toupper`. -/
def toUpper (s : String) : String := String.ofList (s.toList.map Char.toUpper)

/-- `std::transform` with `::tolower`. -/
def toLower (s : String) : String := String.ofList (s.toList.map Char.toLower)

theorem digitRun_toDigits (n : Nat) : digitRun (Nat.toDigits 10 n) = some n := by
  have hall : ∀ c ∈ Nat.toDigits 10 n, c.isDigit = true := fun c hc =>
    Nat.isDigit_of_mem_toDigits (by decide) (by decide) hc
  unfold digitRun
  rw [List.takeWhile_eq_self_iff.2 hall]
  split
  · next h => exact absurd h Nat.toDigits_ne_nil
  · rw [Nat.ofDigitChars_ten_toDigits]

/-- The first character of a decimal text is neither a blank nor a sign. -/
theorem toDigits_head {n : Nat} {c : Char} {cs : List Char} (h : Nat.toDigits 10 n = c :: cs) :
    isSpace c = false ∧ c ≠ '-' ∧ c ≠ '+' := by
  have hd : c.isDigit = true :=
    Nat.isDigit_of_mem_toDigits (by decide) (by decide) (h ▸ List.mem_cons_self)
  have hlo : 48 ≤ c.toNat := (Char.isDigit_iff_toNat.1 hd).1
  refine ⟨?_, ?_, ?_⟩
  · have hsp : c ≠ ' ' := by rintro rfl; exact absurd hd (by decide)
    have hcr : ¬ c ≤ '\r' := fun hle => by
      have : c.toNat ≤ 13 := hle
      omega
    simp [isSpace, hsp, hcr]
  · rintro rfl; exact absurd hd (by decide)
  · rintro rfl; exact absurd hd (by decide)

theorem decimalPrefix_natRepr (n : Nat) : decimalPrefix (toString n) = some (n : Int) := by
  unfold decimalPrefix
  rw [Nat.toString_eq_ofList_toDigits, String.toList_ofList]
  cases hd : Nat.toDigits 10 n with
  | nil => exact absurd hd Nat.toDigits_ne_nil
  | cons c cs =>
    obtain ⟨hsp, hminus, hplus⟩ := toDigits_head hd
    rw [List.dropWhile_cons_of_neg (by simp [hsp])]
    split
    · next heq => exact absurd (List.cons.inj heq).1 hminus
    · next heq => exact absurd (List.cons.inj heq).1 hplus
    · rw [← hd, digitRun_toDigits]; rfl

/-- Decimal text reads back as the number it was written from. -/
theorem decimalPrefix_toString (i : Int) : decimalPrefix (toString i) = some i := by
  cases i with
  | ofNat n => exact decimalPrefix_natRepr n
  | negSucc n =>
    have htext : toString (Int.negSucc n) = "-" ++ toString (n + 1) := rfl
    unfold decimalPrefix
    have hchars : ("-" ++ String.ofList (Nat.toDigits 10 (n + 1))).toList =
        '-' :: Nat.toDigits 10 (n + 1) := by
      rw [String.toList_append, String.toList_ofList, String.toList_ofList]; rfl
    rw [htext, Nat.toString_eq_ofList_toDigits, hchars, List.dropWhile_cons_of_neg (by decide)]
    simp only [digitRun_toDigits, Option.map_some]
    rfl

theorem stoi_toString {i : Int} (h : IsInt i) : stoi (toString i) = .ok i := by
  unfold stoi
  rw [decimalPrefix_toString]
  simp only [h, ↓reduceIte]

/-- Reading the text of a number back gives that number, when it fits. -/
theorem stoi_toString_ok {i n : Int} (h : stoi (toString i) = .ok n) : n = i ∧ IsInt i := by
  unfold stoi at h
  rw [decimalPrefix_toString] at h
  dsimp only at h
  split at h
  · next hi => cases h; exact ⟨rfl, hi⟩
  · cases h

theorem atoi_toString {i : Int} (h : IsInt i) : atoi (toString i) = i := by
  have h₀ := h
  unfold IsInt INT_MIN INT_MAX at h
  unfold atoi
  rw [decimalPrefix_toString]
  have hclamp : max (-9223372036854775808) (min 9223372036854775807 i) = i := by omega
  show toInt32 (max (-9223372036854775808) (min 9223372036854775807 i)) = i
  rw [hclamp]
  exact toInt32_of_isInt h₀

/-- Decimal text holds digits and at most a sign. -/
theorem nul_not_in_decimal (i : Int) : '\x00' ∉ (toString i).toList := by
  have hdigits : ∀ n : Nat, '\x00' ∉ Nat.toDigits 10 n := fun n hnul =>
    absurd (Nat.isDigit_of_mem_toDigits (by decide) (by decide) hnul) (by decide)
  cases i with
  | ofNat n =>
    have htext : toString (Int.ofNat n) = toString n := rfl
    rw [htext, Nat.toString_eq_ofList_toDigits, String.toList_ofList]
    exact hdigits n
  | negSucc n =>
    have htext : toString (Int.negSucc n) = "-" ++ toString (n + 1) := rfl
    rw [htext, String.toList_append, Nat.toString_eq_ofList_toDigits, String.toList_ofList]
    intro hnul
    rcases List.mem_append.1 hnul with hsign | hdigit
    · exact absurd hsign (by decide)
    · exact hdigits _ (by rwa [String.toList_ofList] at hdigit)

end LogisticService
