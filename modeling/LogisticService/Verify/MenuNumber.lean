import LogisticService.Effects.Picks
import LogisticService.Verify.Session
import Mathlib.Algebra.GroupWithZero.Nat

/-!
# The numbers of the menus

`get_int_input` reads the number with `sscanf` and looks at the characters of
the line in a loop of its own. A line that passes both may still hold more than
one number, and a NUL hides what is behind it. Apart from such lines
(`Stray`) the loop returns the value of the first line that is one number
within the bounds, and the smaller bound where there is none
(`getIntInput_one_number_iff`).
-/

namespace LogisticService

open Effects CLib Program

/-! ## The first number of a text -/

def blank (b : Byte) : Bool := b = 32 || b = 9 || b = newline

def digit (b : Byte) : Bool := 48 ≤ b && b ≤ 57

/-- The value of some digits. -/
def decimal (ds : List Byte) : Nat := ds.foldl (fun n b => 10 * n + (b.toNat - 48)) 0

/-- The first number of a text: blanks, a whole run of digits, and what is
behind it. -/
structure FirstNumber (text lead ds rest : List Byte) : Prop where
  text_eq : text = lead ++ (ds ++ rest)
  blanks : ∀ b ∈ lead, blank b = true
  ne_nil : ds ≠ []
  digits : ∀ b ∈ ds, digit b = true
  whole : ∀ b ∈ rest.head?, digit b = false

/-- The digits of the first number. -/
def numberOf (text : List Byte) : List Byte := (text.dropWhile blank).takeWhile digit

/-- What is behind the first number. -/
def behind (text : List Byte) : List Byte := (text.dropWhile blank).dropWhile digit

/-- No run of digits in the line is too large for an `int`. -/
def FitsInt (line : List Byte) : Prop :=
  ∀ ds, ds <:+: line → (∀ b ∈ ds, digit b = true) → (decimal ds : Int) ≤ INT_MAX

theorem blank_iff {b : Byte} : blank b = true ↔ b = 32 ∨ b = 9 ∨ b = newline := by
  simp [blank, or_assoc]

theorem not_blank_of_digit {b : Byte} (h : digit b = true) : blank b = false := by
  refine Bool.eq_false_iff.2 fun hblank => ?_
  rcases blank_iff.1 hblank with rfl | rfl | rfl <;> exact absurd h (by decide)

theorem digit_of_numberByte {b : Byte} (h : numberByte b = true) (hblank : blank b = false) :
    digit b = true := by
  have hor : (blank b || digit b) = true := h
  rwa [hblank, Bool.false_or] at hor

/-- A text has at most one first number. -/
theorem firstNumber_iff {text lead ds rest : List Byte} :
    FirstNumber text lead ds rest ↔
      lead = text.takeWhile blank ∧ ds = numberOf text ∧ rest = behind text ∧ ds ≠ [] := by
  constructor
  · intro h
    obtain ⟨d, ds', rfl⟩ := List.exists_cons_of_ne_nil h.ne_nil
    have hhead : ¬ blank d = true := by
      rw [not_blank_of_digit (h.digits d List.mem_cons_self)]
      decide
    have hrest : rest.takeWhile digit = [] ∧ rest.dropWhile digit = rest := by
      cases rest with
      | nil => exact ⟨rfl, rfl⟩
      | cons b rest =>
        have hb : ¬ digit b = true := by
          rw [h.whole b rfl]
          decide
        exact ⟨List.takeWhile_cons_of_neg hb, List.dropWhile_cons_of_neg hb⟩
    have hlead : text.takeWhile blank = lead := by
      rw [h.text_eq, List.takeWhile_append_of_pos h.blanks, List.cons_append,
        List.takeWhile_cons_of_neg hhead, List.append_nil]
    have hnumber : text.dropWhile blank = d :: ds' ++ rest := by
      rw [h.text_eq, List.dropWhile_append_of_pos h.blanks, List.cons_append,
        List.dropWhile_cons_of_neg hhead]
    refine ⟨hlead.symm, ?_, ?_, h.ne_nil⟩
    · rw [numberOf, hnumber, List.takeWhile_append_of_pos h.digits, hrest.1, List.append_nil]
    · rw [behind, hnumber, List.dropWhile_append_of_pos h.digits, hrest.2]
  · rintro ⟨rfl, rfl, rfl, hne⟩
    refine ⟨?_, fun b => List.mem_takeWhile_imp, hne, fun b => List.mem_takeWhile_imp, ?_⟩
    · rw [numberOf, behind, List.takeWhile_append_dropWhile, List.takeWhile_append_dropWhile]
    · intro b hb
      have hneg := List.head?_dropWhile_not digit (text.dropWhile blank)
      rw [← behind, Option.mem_def.1 hb] at hneg
      simpa using hneg

theorem firstNumber_exists_iff {text : List Byte} {P : List Byte → List Byte → Prop} :
    (∃ lead ds rest, FirstNumber text lead ds rest ∧ P ds rest) ↔
      numberOf text ≠ [] ∧ P (numberOf text) (behind text) := by
  constructor
  · rintro ⟨lead, ds, rest, hfirst, hP⟩
    obtain ⟨-, rfl, rfl, hne⟩ := firstNumber_iff.1 hfirst
    exact ⟨hne, hP⟩
  · rintro ⟨hne, hP⟩
    exact ⟨_, _, _, firstNumber_iff.2 ⟨rfl, rfl, rfl, hne⟩, hP⟩

/-- Only what is behind the first number can be neither a blank nor a digit. -/
theorem all_numberByte_iff {text : List Byte} :
    text.all numberByte = true ↔ ∀ b ∈ behind text, numberByte b = true := by
  rw [List.all_eq_true]
  constructor
  · intro h b hb
    exact h b ((List.dropWhile_sublist _).subset ((List.dropWhile_sublist _).subset hb))
  · intro h b hb
    rw [← @List.takeWhile_append_dropWhile _ blank text, List.mem_append] at hb
    rcases hb with hb | hb
    · have hblank : blank b = true := List.mem_takeWhile_imp hb
      exact Bool.or_eq_true_iff.2 (.inl hblank)
    · rw [← @List.takeWhile_append_dropWhile _ digit (text.dropWhile blank),
        List.mem_append] at hb
      rcases hb with hb | hb
      · have hdigit : digit b = true := List.mem_takeWhile_imp hb
        exact Bool.or_eq_true_iff.2 (.inr hdigit)
      · exact h b hb

/-- The first number of a line fits, when its runs of digits do. -/
theorem FitsInt.numberOf_le {line : List Byte} (h : FitsInt line) :
    (decimal (numberOf (CString.ofBytes line).bytes) : Int) ≤ INT_MAX := by
  have hbegins : (CString.ofBytes line).bytes <+: line := List.takeWhile_prefix _
  refine h _ ?_ fun b => List.mem_takeWhile_imp
  exact ((List.takeWhile_prefix _).isInfix.trans (List.dropWhile_suffix _).isInfix).trans
    hbegins.isInfix

/-! ## What `sscanf` reads -/

/-- A byte as a character. -/
def charOf (b : Byte) : Char := Char.ofNat b.toNat

theorem charOf_toNat (b : Byte) : (charOf b).toNat = b.toNat := by
  have hlt : b.toNat < 256 := b.toNat_lt
  have hvalid : b.toNat.isValidChar := .inl (by omega)
  unfold charOf Char.ofNat
  rw [dif_pos hvalid]
  rfl

theorem isDigit_charOf (b : Byte) : (charOf b).isDigit = digit b := by
  rw [Bool.eq_iff_iff, Char.isDigit_iff_toNat, charOf_toNat]
  simp [digit, UInt8.le_iff_toNat_le]

/-- On the bytes that a menu number may hold, `sscanf` skips just the blanks. -/
theorem isSpace_charOf {b : Byte} (h : numberByte b = true) : isSpace (charOf b) = blank b := by
  cases hblank : blank b with
  | true => rcases blank_iff.1 hblank with rfl | rfl | rfl <;> rfl
  | false =>
    have hdigit := digit_of_numberByte h hblank
    rw [← isDigit_charOf] at hdigit
    have hlo : 48 ≤ (charOf b).toNat := (Char.isDigit_iff_toNat.1 hdigit).1
    have hsp : charOf b ≠ ' ' := fun heq => by
      rw [heq] at hlo
      exact absurd hlo (by decide)
    have hcr : ¬ charOf b ≤ '\r' := fun hle => by
      have hle' : (charOf b).toNat ≤ 13 := hle
      omega
    simp [isSpace, hsp, hcr]

/-- A menu number has no sign. -/
theorem charOf_ne_sign {b : Byte} (h : numberByte b = true) :
    charOf b ≠ '-' ∧ charOf b ≠ '+' := by
  refine ⟨fun heq => ?_, fun heq => ?_⟩
  · have hb : b = 45 := UInt8.toNat_inj.1 (by rw [← charOf_toNat, heq]; rfl)
    rw [hb] at h
    exact absurd h (by decide)
  · have hb : b = 43 := UInt8.toNat_inj.1 (by rw [← charOf_toNat, heq]; rfl)
    rw [hb] at h
    exact absurd h (by decide)

theorem ofDigitChars_charOf (ds : List Byte) :
    Nat.ofDigitChars 10 (ds.map charOf) 0 = decimal ds := by
  rw [Nat.ofDigitChars_eq_foldl, List.foldl_map]
  simp only [charOf_toNat]
  rfl

theorem dropWhile_isSpace {text : List Byte} (h : text.all numberByte = true) :
    (text.map charOf).dropWhile isSpace = (text.dropWhile blank).map charOf := by
  induction text with
  | nil => rfl
  | cons b text ih =>
    rw [List.all_cons, Bool.and_eq_true] at h
    rw [List.map_cons, List.dropWhile_cons, List.dropWhile_cons, isSpace_charOf h.1, ih h.2]
    split <;> rfl

theorem digitRun_charOf (text : List Byte) : digitRun (text.map charOf) =
    if text.takeWhile digit = [] then none else some (decimal (text.takeWhile digit)) := by
  have hdigits : (text.map charOf).takeWhile Char.isDigit = (text.takeWhile digit).map charOf := by
    rw [List.takeWhile_map]
    exact congrArg (fun p => (text.takeWhile p).map charOf) (funext isDigit_charOf)
  unfold digitRun
  rw [hdigits]
  cases hds : text.takeWhile digit with
  | nil => rfl
  | cons d ds => exact congrArg some (ofDigitChars_charOf (d :: ds))

/-- The number at the start of a text that holds only blanks and digits. -/
theorem decimalPrefix_charOf {text : List Byte} (h : text.all numberByte = true) :
    decimalPrefix (String.ofList (text.map charOf)) =
      if numberOf text = [] then none else some (decimal (numberOf text) : Int) := by
  have hall : ∀ b ∈ text.dropWhile blank, numberByte b = true := fun b hb =>
    List.all_eq_true.1 h b ((List.dropWhile_sublist _).subset hb)
  have hdigits : (digitRun ((text.dropWhile blank).map charOf)).map (fun n : Nat => (n : Int)) =
      if numberOf text = [] then none else some (decimal (numberOf text) : Int) := by
    rw [digitRun_charOf, numberOf]
    split <;> rfl
  unfold decimalPrefix
  rw [String.toList_ofList, dropWhile_isSpace h]
  split
  · next heq =>
    obtain ⟨b, _, hb, hminus, _⟩ := List.map_eq_cons_iff.1 heq
    exact absurd hminus (charOf_ne_sign (hall b (hb ▸ List.mem_cons_self))).1
  · next heq =>
    obtain ⟨b, _, hb, hplus, _⟩ := List.map_eq_cons_iff.1 heq
    exact absurd hplus (charOf_ne_sign (hall b (hb ▸ List.mem_cons_self))).2
  · exact hdigits

/-- A number that fits is read as it stands. -/
theorem atoi_of_fits {s : String} {n : Nat} (h : decimalPrefix s = some (n : Int))
    (hfits : (n : Int) ≤ INT_MAX) : atoi s = n := by
  have hint : IsInt (n : Int) := ⟨by unfold INT_MIN; omega, hfits⟩
  unfold atoi
  rw [h]
  unfold INT_MAX at hfits
  have hclamp : max (-9223372036854775808) (min 9223372036854775807 (n : Int)) = n := by omega
  show toInt32 (max (-9223372036854775808) (min 9223372036854775807 (n : Int))) = n
  rw [hclamp, toInt32_of_isInt hint]

/-- What `sscanf` reads of a line that holds only blanks and digits. -/
theorem scanInt_ofBytes {line : List Byte} (hfits : FitsInt line)
    (hall : (CString.ofBytes line).bytes.all numberByte = true) :
    scanInt (.ofBytes line) = if numberOf (CString.ofBytes line).bytes = [] then none
      else some (decimal (numberOf (CString.ofBytes line).bytes) : Int) := by
  have hdecimal := decimalPrefix_charOf hall
  show (decimalPrefix (String.ofList ((CString.ofBytes line).bytes.map charOf))).map
    (fun _ => atoi (String.ofList ((CString.ofBytes line).bytes.map charOf))) = _
  by_cases hds : numberOf (CString.ofBytes line).bytes = []
  · rw [hdecimal, if_pos hds]
    rfl
  · rw [if_neg hds] at hdecimal
    rw [atoi_of_fits hdecimal hfits.numberOf_le, hdecimal, if_neg hds]
    rfl

/-- The two scans of a line together find its first number, when there is
nothing but blanks and digits in it, as far as a NUL. -/
theorem menuNumber_eq_some_iff {line : List Byte} (hfits : FitsInt line) {n : Int} :
    menuNumber (.ofBytes line) = some n ↔ ∃ lead ds rest,
      FirstNumber (CString.ofBytes line).bytes lead ds rest ∧
        (∀ b ∈ rest, numberByte b = true) ∧ n = decimal ds := by
  have hexists := @firstNumber_exists_iff (CString.ofBytes line).bytes
    fun ds rest => (∀ b ∈ rest, numberByte b = true) ∧ n = decimal ds
  rw [hexists, ← all_numberByte_iff]
  unfold menuNumber
  by_cases hall : (CString.ofBytes line).bytes.all numberByte = true
  · rw [if_pos hall, scanInt_ofBytes hfits hall]
    split
    · next hds => simp [hds]
    · next hds => simp [hds, hall, eq_comm]
  · rw [if_neg hall]
    simp [hall]

/-! ## Lines with one number and others -/

/-- A line that is one number: optional blanks, a run of digits, optional blanks. -/
def NumberLine (line : List Byte) (v : Int) : Prop := ∃ lead ds trail,
  FirstNumber line lead ds trail ∧ (∀ b ∈ trail, blank b = true) ∧ v = decimal ds

/-- A line that is one number within the bounds. -/
def Chosen (low high : Int) (line : List Byte) (v : Int) : Prop :=
  NumberLine line v ∧ low ≤ v ∧ v ≤ high

/-- A line that starts with a number within the bounds, has only blanks and
digits behind it, as far as a NUL, and is more than that number: there are
further digits, or a NUL. -/
def Stray (low high : Int) (line : List Byte) : Prop := ∃ lead ds rest,
  FirstNumber (CString.ofBytes line).bytes lead ds rest ∧ (∀ b ∈ rest, numberByte b = true) ∧
    (low ≤ decimal ds ∧ decimal ds ≤ high) ∧ (0 ∈ line ∨ ∃ b ∈ rest, digit b = true)

/-- A line that `get_int_input` takes. -/
def Taken (low high : Int) (line : List Byte) (v : Int) : Prop :=
  menuNumber (.ofBytes line) = some v ∧ low ≤ v ∧ v ≤ high

theorem numberLine_iff {line : List Byte} {v : Int} : NumberLine line v ↔ numberOf line ≠ [] ∧
    (behind line).all blank = true ∧ v = decimal (numberOf line) := by
  rw [List.all_eq_true]
  exact firstNumber_exists_iff

theorem stray_iff {low high : Int} {line : List Byte} : Stray low high line ↔
    numberOf (CString.ofBytes line).bytes ≠ [] ∧
      (behind (CString.ofBytes line).bytes).all numberByte = true ∧
      (low ≤ decimal (numberOf (CString.ofBytes line).bytes) ∧
        decimal (numberOf (CString.ofBytes line).bytes) ≤ high) ∧
      (0 ∈ line ∨ (behind (CString.ofBytes line).bytes).any digit = true) := by
  rw [List.all_eq_true, List.any_eq_true]
  exact firstNumber_exists_iff

instance (line : List Byte) (v : Int) : Decidable (NumberLine line v) :=
  decidable_of_iff _ numberLine_iff.symm

instance (low high : Int) (line : List Byte) (v : Int) : Decidable (Chosen low high line v) :=
  inferInstanceAs (Decidable (_ ∧ _))

instance (low high : Int) (line : List Byte) : Decidable (Stray low high line) :=
  decidable_of_iff _ stray_iff.symm

theorem NumberLine.nulFree {line : List Byte} {v : Int} (h : NumberLine line v) : 0 ∉ line := by
  obtain ⟨lead, ds, trail, hfirst, htrail, -⟩ := h
  intro hmem
  rw [hfirst.text_eq, List.mem_append, List.mem_append] at hmem
  rcases hmem with hmem | hmem | hmem
  · exact absurd (hfirst.blanks 0 hmem) (by decide)
  · exact absurd (hfirst.digits 0 hmem) (by decide)
  · exact absurd (htrail 0 hmem) (by decide)

/-- A line that is one number is taken for it. -/
theorem Chosen.taken {line : List Byte} (hfits : FitsInt line) {low high v : Int}
    (h : Chosen low high line v) : Taken low high line v := by
  obtain ⟨hnumber, hrange⟩ := h
  have hline := CString.ofBytes_nulFree hnumber.nulFree
  obtain ⟨lead, ds, trail, hfirst, htrail, hv⟩ := hnumber
  rw [← hline] at hfirst
  refine ⟨(menuNumber_eq_some_iff hfits).2 ⟨lead, ds, trail, hfirst, fun b hb => ?_, hv⟩, hrange⟩
  exact Bool.or_eq_true_iff.2 (.inl (htrail b hb))

/-- The stray lines are those that are taken without being one number. -/
theorem taken_chosen_iff {line : List Byte} (hfits : FitsInt line) {low high : Int} :
    (∀ v, Taken low high line v → Chosen low high line v) ↔ ¬ Stray low high line := by
  constructor
  · rintro h ⟨lead, ds, rest, hfirst, hrest, hrange, hmore⟩
    have htaken : Taken low high line (decimal ds) :=
      ⟨(menuNumber_eq_some_iff hfits).2 ⟨lead, ds, rest, hfirst, hrest, rfl⟩, hrange⟩
    have hnumber := (h _ htaken).1
    rcases hmore with hnul | ⟨b, hb, hdigit⟩
    · exact hnumber.nulFree hnul
    · rw [CString.ofBytes_nulFree hnumber.nulFree] at hfirst
      obtain ⟨-, -, rfl, -⟩ := firstNumber_iff.1 hfirst
      have hblank := List.all_eq_true.1 (numberLine_iff.1 hnumber).2.1 b hb
      rw [not_blank_of_digit hdigit] at hblank
      cases hblank
  · rintro hnot v ⟨hmenu, hrange⟩
    obtain ⟨lead, ds, rest, hfirst, hrest, rfl⟩ := (menuNumber_eq_some_iff hfits).1 hmenu
    have hnul : 0 ∉ line := fun hmem =>
      hnot ⟨lead, ds, rest, hfirst, hrest, hrange, .inl hmem⟩
    rw [CString.ofBytes_nulFree hnul] at hfirst
    refine ⟨⟨lead, ds, rest, hfirst, fun b hb => ?_, rfl⟩, hrange⟩
    cases hblank : blank b with
    | true => rfl
    | false =>
      have hdigit := digit_of_numberByte (hrest b hb) hblank
      rw [← CString.ofBytes_nulFree hnul] at hfirst
      exact absurd ⟨lead, ds, rest, hfirst, hrest, hrange, .inr ⟨b, hb, hdigit⟩⟩ hnot

/-! ## The loop -/

section

variable {low high : Int} {fuel : Nat} {line : List Byte}

theorem afterRead_taken {v : Int} (h : Taken low high line v) :
    afterRead low high fuel (some line) = .pure v := by
  rw [afterRead_some h.1, if_pos h.2]

theorem afterRead_refused (h : ∀ v, ¬ Taken low high line v) :
    afterRead low high fuel (some line) = getIntInput low high fuel := by
  cases hmenu : menuNumber (.ofBytes line) with
  | none => exact afterRead_none hmenu
  | some option => rw [afterRead_some hmenu, if_neg fun hrange => h option ⟨hmenu, hrange⟩]

end

namespace Host

variable {S : Type} (host : Host S)

/-- `get_int_input` returns `v` within so many turns, and these are its reads. -/
def GivesIn (low high : Int) (fuel : Nat) (s : S) (v : Int)
    (reads : List (Option (List Byte))) : Prop :=
  ((getIntInput low high fuel).run host.answer s).1 = .ok v ∧
    (getIntInput low high fuel).trace host.answer s =
      reads.map fun read => (⟨.fgets .option, read⟩ : Answered Console)

/-- `get_int_input` returns `v`, and these are its reads. -/
def Gives (low high : Int) (s : S) (v : Int) (reads : List (Option (List Byte))) : Prop :=
  ∃ fuel, host.GivesIn low high fuel s v reads

variable {host} {low high : Int} {fuel : Nat} {s : S} {line : List Byte} {v : Int}
  {reads : List (Option (List Byte))}

theorem getIntInput_run : (getIntInput low high (fuel + 1)).run host.answer s =
    (afterRead low high fuel (host.answer s (.fgets .option)).1).run host.answer
      (host.answer s (.fgets .option)).2 := by
  rw [getIntInput_succ]
  rfl

theorem getIntInput_trace : (getIntInput low high (fuel + 1)).trace host.answer s =
    ⟨.fgets .option, (host.answer s (.fgets .option)).1⟩ ::
      (afterRead low high fuel (host.answer s (.fgets .option)).1).trace host.answer
        (host.answer s (.fgets .option)).2 := by
  rw [getIntInput_succ]
  rfl

/-- A read after which the loop ends. -/
theorem givesIn_last {read : Option (List Byte)} {w : Int}
    (hread : (host.answer s (.fgets .option)).1 = read)
    (hends : afterRead low high fuel read = .pure w) :
    host.GivesIn low high (fuel + 1) s v reads ↔ v = w ∧ reads = [read] := by
  unfold GivesIn
  rw [getIntInput_run, getIntInput_trace, hread, hends]
  constructor
  · rintro ⟨hv, hreads⟩
    cases hv
    cases reads with
    | nil => cases hreads
    | cons first reads =>
      obtain ⟨hfirst, hrest⟩ := List.cons.inj hreads
      cases hfirst
      obtain rfl := List.map_eq_nil_iff.1 hrest.symm
      exact ⟨rfl, rfl⟩
  · rintro ⟨rfl, rfl⟩
    exact ⟨rfl, rfl⟩

/-- A read after which the loop goes on. -/
theorem givesIn_again {read : Option (List Byte)}
    (hread : (host.answer s (.fgets .option)).1 = read)
    (hagain : afterRead low high fuel read = getIntInput low high fuel) :
    host.GivesIn low high (fuel + 1) s v reads ↔ ∃ later, reads = read :: later ∧
      host.GivesIn low high fuel (host.answer s (.fgets .option)).2 v later := by
  unfold GivesIn
  rw [getIntInput_run, getIntInput_trace, hread, hagain]
  constructor
  · rintro ⟨hv, hreads⟩
    cases reads with
    | nil => cases hreads
    | cons first later =>
      obtain ⟨hfirst, hrest⟩ := List.cons.inj hreads
      cases hfirst
      exact ⟨later, rfl, hv, hrest⟩
  · rintro ⟨later, rfl, hv, hrest⟩
    exact ⟨hv, congrArg (List.cons _) hrest⟩

/-- A line that fits is read, and the other lines are left. -/
theorem reads_linesOf {lines : List (List Byte)} (h : linesOf (host.stdin s) = line :: lines)
    (hfits : line.length < BUFFER_SIZE_MENU) :
    (host.answer s (.fgets .option)).1 = some line ∧
      linesOf (host.stdin (host.answer s (.fgets .option)).2) = lines := by
  obtain ⟨rest, hfgets, hlines⟩ := fgets_linesOf h hfits
  rw [host.reads, host.leaves, Prompt.size, hfgets]
  exact ⟨rfl, hlines⟩

/-- The loop gives the value of the first line that it takes. -/
theorem gives_iff (hlines : ∀ line ∈ linesOf (host.stdin s), line.length < BUFFER_SIZE_MENU) :
    host.Gives low high s v reads ↔
      Picks (Taken low high) low (linesOf (host.stdin s)) v reads := by
  constructor
  · rintro ⟨fuel, hgives⟩
    induction fuel generalizing s reads with
    | zero => cases hgives.1
    | succ fuel ih =>
      cases hsplit : linesOf (host.stdin s) with
      | nil =>
        have hend := (host.reads_end (linesOf_eq_nil.1 hsplit) .option).1
        obtain ⟨rfl, rfl⟩ := (givesIn_last hend rfl).1 hgives
        exact .ended
      | cons line lines =>
        have hfits := hlines line (hsplit ▸ List.mem_cons_self)
        obtain ⟨hread, hleft⟩ := reads_linesOf hsplit hfits
        by_cases htaken : ∃ w, Taken low high line w
        · obtain ⟨w, hw⟩ := htaken
          obtain ⟨rfl, rfl⟩ := (givesIn_last hread (afterRead_taken hw)).1 hgives
          exact .taken hw
        · have hnot : ∀ w, ¬ Taken low high line w := fun w hw => htaken ⟨w, hw⟩
          obtain ⟨later, rfl, hlater⟩ := (givesIn_again hread (afterRead_refused hnot)).1 hgives
          have hnext := ih (fun l hl => hlines l (by
            rw [hsplit, ← hleft]
            exact List.mem_cons_of_mem _ hl)) hlater
          rw [hleft] at hnext
          exact .refused hnot hnext
  · intro hpicks
    generalize hsplit : linesOf (host.stdin s) = lines at hpicks hlines
    induction hpicks generalizing s with
    | ended =>
      have hend := (host.reads_end (linesOf_eq_nil.1 hsplit) .option).1
      exact ⟨1, (givesIn_last hend rfl).2 ⟨rfl, rfl⟩⟩
    | @taken line lines v hw =>
      obtain ⟨hread, -⟩ := reads_linesOf hsplit (hlines line List.mem_cons_self)
      exact ⟨1, (givesIn_last hread (afterRead_taken hw)).2 ⟨rfl, rfl⟩⟩
    | @refused line lines v reads hnot _ ih =>
      obtain ⟨hread, hleft⟩ := reads_linesOf hsplit (hlines line List.mem_cons_self)
      obtain ⟨fuel, hlater⟩ := ih hleft fun l hl => hlines l (List.mem_cons_of_mem _ hl)
      exact ⟨fuel + 1, (givesIn_again hread (afterRead_refused hnot)).2 ⟨reads, rfl, hlater⟩⟩

/-- **The menus take exactly one number, apart from stray lines**:
`get_int_input` returns the value of the first line that is one number within
the bounds, refuses every line before it, and returns the smaller bound at the
end of the input where there is none, if and only if no line before the first
such line is stray. -/
theorem getIntInput_one_number_iff
    (hlines : ∀ line ∈ linesOf (host.stdin s), line.length < BUFFER_SIZE_MENU ∧ FitsInt line) :
    (∀ v reads, host.Gives low high s v reads ↔
        Picks (Chosen low high) low (linesOf (host.stdin s)) v reads) ↔
      ∀ before line after, linesOf (host.stdin s) = before ++ line :: after →
        (∀ l ∈ before, ∀ v, ¬ Chosen low high l v) → ¬ Stray low high line := by
  have hunique : ∀ line v w, Taken low high line v → Taken low high line w → v = w :=
    fun _ _ _ hv hw => Option.some.inj (hv.1.symm.trans hw.1)
  have hle : ∀ line ∈ linesOf (host.stdin s), ∀ v,
      Chosen low high line v → Taken low high line v :=
    fun line hline v hv => hv.taken (hlines line hline).2
  have hgives : ∀ v reads, host.Gives low high s v reads ↔
      Picks (Taken low high) low (linesOf (host.stdin s)) v reads :=
    fun v reads => gives_iff fun line hline => (hlines line hline).1
  simp only [hgives]
  rw [Picks.congr_iff hunique hle]
  refine forall₃_congr fun before line after => imp_congr_right fun hsplit => imp_congr_right
    fun _ => taken_chosen_iff (hlines line ?_).2
  rw [hsplit]
  exact List.mem_append_right _ List.mem_cons_self

end Host

/-! ## Two numbers on a line -/

theorem decimal_lt {ds : List Byte} (h : ∀ b ∈ ds, digit b = true) :
    decimal ds < 10 ^ ds.length := by
  induction ds using List.reverseRecOn with
  | nil => decide
  | append_singleton ds d ih =>
    have hlt := ih fun b hb => h b (List.mem_append_left _ hb)
    have hd : d.toNat ≤ 57 := by
      have hdigit := h d (List.mem_append_right _ (List.mem_singleton.2 rfl))
      unfold digit at hdigit
      rw [Bool.and_eq_true, decide_eq_true_eq, decide_eq_true_eq] at hdigit
      exact UInt8.le_iff_toNat_le.1 hdigit.2
    have hsnoc : decimal (ds ++ [d]) = 10 * decimal ds + (d.toNat - 48) := by
      unfold decimal
      rw [List.foldl_append]
      rfl
    rw [hsnoc, List.length_append, List.length_singleton, Nat.pow_succ]
    omega

/-- A short line has no number that does not fit. -/
theorem fitsInt_of_length {line : List Byte} (h : line.length ≤ 9) : FitsInt line := by
  intro ds hruns hdigits
  have hlt := decimal_lt hdigits
  have hpow : 10 ^ ds.length ≤ 10 ^ 9 :=
    Nat.pow_le_pow_right (by decide) (hruns.length_le.trans h)
  unfold INT_MAX
  omega

/-- The surroundings of a menu on a typed input. -/
def atMenu : Host (Surroundings (List (List Byte × UserRow))) := .fixed selectFrom saltedCrypt

theorem lines_fit {lines : List (List Byte)} (h : (lines.all fun line => line.length ≤ 9) = true) :
    ∀ line ∈ lines, line.length < BUFFER_SIZE_MENU ∧ FitsInt line := by
  intro line hline
  have hlength : line.length ≤ 9 := by simpa using List.all_eq_true.1 h line hline
  exact ⟨Nat.lt_of_le_of_lt hlength (by decide), fitsInt_of_length hlength⟩

/-- Two numbers, out of the bounds with the first of them, are refused, and so is a word. -/
theorem getIntInput_one_number_two :
    atMenu.Gives 1 2 (typing "12 1\nx\n 2 \n" []) 2
        [some (ascii "12 1\n"), some (ascii "x\n"), some (ascii " 2 \n")] ∧
      Picks (Chosen 1 2) 1 (linesOf (ascii "12 1\nx\n 2 \n")) 2
        [some (ascii "12 1\n"), some (ascii "x\n"), some (ascii " 2 \n")] := by
  have hstray : ∀ line ∈ linesOf (ascii "12 1\nx\n 2 \n"), ¬ Stray 1 2 line := by decide
  have hiff : ∀ v reads, atMenu.Gives 1 2 (typing "12 1\nx\n 2 \n" []) v reads ↔
      Picks (Chosen 1 2) 1 (linesOf (ascii "12 1\nx\n 2 \n")) v reads :=
    (Host.getIntInput_one_number_iff (lines_fit (by decide))).2 fun before line after h _ =>
      hstray line (h ▸ List.mem_append_right _ List.mem_cons_self)
  have hgives : atMenu.Gives 1 2 (typing "12 1\nx\n 2 \n" []) 2
      [some (ascii "12 1\n"), some (ascii "x\n"), some (ascii " 2 \n")] := ⟨3, rfl, rfl⟩
  exact ⟨hgives, (hiff _ _).1 hgives⟩

/-- **Two numbers are taken for one**: the option `2` is chosen by a line with
two numbers, where no line is one number. -/
theorem getIntInput_two_numbers :
    (∀ line ∈ linesOf (ascii "2 1\n"), line.length < BUFFER_SIZE_MENU ∧ FitsInt line) ∧
      ¬ ∀ v reads, atMenu.Gives 1 2 (typing "2 1\n" []) v reads ↔
        Picks (Chosen 1 2) 1 (linesOf (ascii "2 1\n")) v reads := by
  refine ⟨lines_fit (by decide), fun h => ?_⟩
  have hpicks := (h 2 [some (ascii "2 1\n")]).1 ⟨1, rfl, rfl⟩
  have hnot : ∀ v, ¬ Chosen 1 2 (ascii "2 1\n") v := by
    rintro v ⟨hnumber, -⟩
    exact absurd (numberLine_iff.1 hnumber).2.1 (by decide)
  obtain ⟨later, hlater, hrest⟩ := (Picks.refused_iff hnot).1 hpicks
  cases hlater
  cases hrest

end LogisticService
