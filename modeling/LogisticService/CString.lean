import Mathlib.Data.List.TakeWhile

/-!
# C strings and character arrays

A C string is what stands before the first NUL of some bytes. It is a type of
its own (`CString`), so that no string holds a NUL, and a `char` array is a
list of bytes of the array's size (`CharArray`). `strncpy`, `strcmp`,
`snprintf` and `fgets` are the functions of the C library on these; `strcmp`
has no result when it would read past the end of an array.
-/

namespace CLib

abbrev Byte := UInt8

def newline : Byte := 10

structure CString where
  bytes : List Byte
  nulFree : 0 ∉ bytes
deriving DecidableEq

namespace CString

@[ext] theorem ext {s t : CString} (h : s.bytes = t.bytes) : s = t := by
  cases s
  cases t
  cases h
  rfl

def empty : CString := ⟨[], by simp⟩

/-- The string that some bytes start with. -/
def ofBytes (bs : List Byte) : CString where
  bytes := bs.takeWhile (· ≠ 0)
  nulFree h := by simpa using List.mem_takeWhile_imp h

/-- The string before the first `b`, as `s[strcspn(s, "b")] = '\0'` leaves it. -/
def upTo (s : CString) (b : Byte) : CString where
  bytes := s.bytes.takeWhile (· ≠ b)
  nulFree h := s.nulFree ((List.takeWhile_sublist _).subset h)

/-- The first `n` bytes of the string. -/
def take (s : CString) (n : Nat) : CString where
  bytes := s.bytes.take n
  nulFree h := s.nulFree (List.mem_of_mem_take h)

/-- A terminated string is read back, whatever follows the terminator. -/
theorem ofBytes_terminated (s : CString) (rest : List Byte) :
    ofBytes (s.bytes ++ 0 :: rest) = s := by
  apply ext
  show (s.bytes ++ 0 :: rest).takeWhile (· ≠ 0) = s.bytes
  have hall : ∀ b ∈ s.bytes, decide (b ≠ 0) = true := by
    intro b hb
    have hb0 : b ≠ 0 := fun hzero => s.nulFree (hzero ▸ hb)
    simpa using hb0
  rw [List.takeWhile_append_of_pos hall, List.takeWhile_cons_of_neg (by simp), List.append_nil]

/-- A terminator behind the bytes changes nothing. -/
theorem ofBytes_append_nul (bs : List Byte) : ofBytes (bs ++ [0]) = ofBytes bs := by
  apply ext
  show (bs ++ [0]).takeWhile (· ≠ 0) = bs.takeWhile (· ≠ 0)
  induction bs with
  | nil => rfl
  | cons b bs ih =>
    by_cases hb : b = 0
    · rw [hb]
      rfl
    · rw [List.cons_append, List.takeWhile_cons_of_pos (by simpa using hb), ih,
        List.takeWhile_cons_of_pos (by simpa using hb)]

/-- Bytes without a NUL are the whole string. -/
theorem ofBytes_nulFree {bs : List Byte} (h : 0 ∉ bs) : (ofBytes bs).bytes = bs := by
  refine List.takeWhile_eq_self_iff.2 fun b hb => ?_
  have hb0 : b ≠ 0 := fun hzero => h (hzero ▸ hb)
  simpa using hb0

theorem take_of_length_le {s : CString} {n : Nat} (h : s.bytes.length ≤ n) : s.take n = s :=
  ext (List.take_of_length_le h)

end CString

/-- A `char` array of the given size. -/
structure CharArray (size : Nat) where
  bytes : List Byte
  length_eq : bytes.length = size
deriving DecidableEq

namespace CharArray

variable {size : Nat}

/-- The array after `memset` with zero. -/
def zero (size : Nat) : CharArray size := ⟨List.replicate size 0, List.length_replicate⟩

/-- The string the array holds. -/
def text (a : CharArray size) : CString := .ofBytes a.bytes

/-- One byte is written. -/
def set (a : CharArray size) (i : Nat) (b : Byte) : CharArray size :=
  ⟨a.bytes.set i b, by rw [List.length_set, a.length_eq]⟩

/-- What `strncpy` writes: the string, cut or filled up with NULs to `n` bytes. -/
def copied (s : CString) (n : Nat) : List Byte := (s.bytes ++ List.replicate n 0).take n

theorem length_copied (s : CString) (n : Nat) : (copied s n).length = n := by
  simp only [copied, List.length_take, List.length_append, List.length_replicate]
  omega

/-- `strncpy` of at most the array's size. -/
def strncpy (a : CharArray size) (s : CString) (n : Nat) (hn : n ≤ size) : CharArray size where
  bytes := copied s n ++ a.bytes.drop n
  length_eq := by
    rw [List.length_append, length_copied, List.length_drop, a.length_eq]
    omega

@[simp] theorem text_zero : (zero size).text = .empty := by
  apply CString.ext
  show (List.replicate size 0).takeWhile _ = _
  cases size with
  | zero => rfl
  | succ n => rw [List.replicate_succ, List.takeWhile_cons_of_neg (by simp)]; rfl

/-- `strncpy` to all but the last byte, and a NUL there: the array holds the
string, cut to what fits. -/
theorem text_strncpy {n : Nat} (a : CharArray (n + 1)) (s : CString) :
    ((a.strncpy s n (Nat.le_succ n)).set n 0).text = s.take n := by
  have hlast : (copied s n ++ a.bytes.drop n).set n 0 = copied s n ++ [0] := by
    have hdrop : (a.bytes.drop n).length = 1 := by
      rw [List.length_drop, a.length_eq]
      omega
    obtain ⟨b, hb⟩ := List.length_eq_one_iff.1 hdrop
    rw [hb, List.set_append_right _ _ (by rw [length_copied]), length_copied, Nat.sub_self]
    rfl
  have hcopied : copied s n = (s.take n).bytes ++ List.replicate (n - s.bytes.length) 0 := by
    rw [copied, List.take_append, List.take_replicate]
    show _ = s.bytes.take n ++ _
    rw [show min (n - s.bytes.length) n = n - s.bytes.length by omega]
  show CString.ofBytes ((copied s n ++ a.bytes.drop n).set n 0) = s.take n
  rw [hlast, hcopied, List.append_assoc]
  cases n - s.bytes.length with
  | zero => exact CString.ofBytes_terminated _ []
  | succ k => exact CString.ofBytes_terminated _ _

end CharArray

/-! ## The C library -/

/-- Whether `strcmp` finds the terminated string `s` equal to what `bs` holds;
no result when neither differs nor ends before `bs` does. -/
def strcmp : List Byte → List Byte → Option Bool
  | [], [] => none
  | [], b :: _ => some (b = 0)
  | _ :: _, [] => none
  | c :: s, b :: bs => if c = b then strcmp s bs else some false

/-- What `strcmp` finds equal is equal as strings. -/
theorem strcmp_true {s : CString} {bs : List Byte} (h : strcmp s.bytes bs = some true) :
    CString.ofBytes bs = s := by
  obtain ⟨cs, hcs⟩ := s
  apply CString.ext
  show bs.takeWhile (· ≠ 0) = cs
  replace h : strcmp cs bs = some true := h
  induction cs generalizing bs with
  | nil =>
    cases bs with
    | nil => cases h
    | cons b bs =>
      have hb : b = 0 := by simpa [strcmp] using h
      rw [List.takeWhile_cons_of_neg (by simp [hb])]
  | cons c cs ih =>
    cases bs with
    | nil => cases h
    | cons b bs =>
      rw [strcmp] at h
      by_cases hcb : c = b
      · rw [if_pos hcb] at h
        have hb : b ≠ 0 := fun hzero => hcs (by simp [hcb, hzero])
        rw [List.takeWhile_cons_of_pos (by simpa using hb), hcb,
          ih (fun hin => hcs (List.mem_cons_of_mem _ hin)) h]
      · rw [if_neg hcb] at h
        cases h

/-- `strcmp` stays within an array that is terminated or longer than the string. -/
theorem strcmp_defined {s : CString} {bs : List Byte} (h : 0 ∈ bs ∨ s.bytes.length < bs.length) :
    ∃ same, strcmp s.bytes bs = some same := by
  obtain ⟨cs, hcs⟩ := s
  replace h : 0 ∈ bs ∨ cs.length < bs.length := h
  show ∃ same, strcmp cs bs = some same
  induction cs generalizing bs with
  | nil =>
    cases bs with
    | nil => simp at h
    | cons b bs => exact ⟨_, rfl⟩
  | cons c cs ih =>
    cases bs with
    | nil => simp at h
    | cons b bs =>
      rw [strcmp]
      by_cases hcb : c = b
      · rw [if_pos hcb]
        refine ih (fun hin => hcs (List.mem_cons_of_mem _ hin)) ?_
        have hb : (0 : Byte) ≠ b := fun hzero => hcs (by simp [hcb, hzero])
        simpa [hb] using h
      · rw [if_neg hcb]
        exact ⟨_, rfl⟩

/-- The bytes of a string literal. -/
def bytesOf (s : String) : List Byte := s.toUTF8.data.toList

/-- A format with strings put in for its `%s`; every other byte stands for
itself. -/
def format : List Byte → List CString → List Byte
  | 37 :: 115 :: fmt, s :: args => s.bytes ++ format fmt args
  | b :: fmt, args => b :: format fmt args
  | [], _ => []

theorem format_nulFree {fmt : List Byte} (h : 0 ∉ fmt) (args : List CString) :
    0 ∉ format fmt args := by
  fun_induction format fmt args with
  | case1 fmt s args ih =>
    rw [List.mem_append, not_or]
    exact ⟨s.nulFree, ih fun hin => h (List.mem_cons_of_mem _ (List.mem_cons_of_mem _ hin))⟩
  | case2 b fmt args _ ih =>
    rw [List.mem_cons, not_or] at h ⊢
    exact ⟨h.1, ih h.2⟩
  | case3 => exact List.not_mem_nil

/-- A part of a format without `%` is printed as it is. -/
theorem format_append {cs : List Byte} (h : 37 ∉ cs) (fmt : List Byte) (args : List CString) :
    format (cs ++ fmt) args = cs ++ format fmt args := by
  induction cs with
  | nil => rfl
  | cons b cs ih =>
    rw [List.mem_cons, not_or] at h
    rw [List.cons_append, format, ih h.2]
    · rfl
    · exact fun _ _ _ _ hb _ => h.1 hb.symm

/-- The string `snprintf` leaves in a buffer of the given size. -/
def snprintf (size : Nat) (fmt : CString) (args : List CString) : CString :=
  CString.take ⟨format fmt.bytes args, format_nulFree fmt.nulFree args⟩ (size - 1)

/-- At most so many bytes, up to and with the first newline, and what is left. -/
def readLine : Nat → List Byte → List Byte × List Byte
  | 0, stream => ([], stream)
  | _ + 1, [] => ([], [])
  | n + 1, b :: stream =>
    if b = newline then ([b], stream)
    else
      let (line, rest) := readLine n stream
      (b :: line, rest)

/-- A line is read whole, with its newline, or as far as the bytes go. -/
theorem readLine_line {bs : List Byte} (h : newline ∉ bs) (n : Nat) (stream : List Byte) :
    readLine n (bs ++ newline :: stream) =
      if bs.length < n then (bs ++ [newline], stream)
      else (bs.take n, bs.drop n ++ newline :: stream) := by
  induction bs generalizing n with
  | nil => cases n <;> rfl
  | cons b bs ih =>
    rw [List.mem_cons, not_or] at h
    cases n with
    | zero => rfl
    | succ n =>
      rw [List.cons_append, readLine, if_neg (Ne.symm h.1), ih h.2]
      simp only [List.length_cons, Nat.add_lt_add_iff_right]
      split <;> rfl

theorem readLine_append (n : Nat) (stream : List Byte) :
    (readLine n stream).1 ++ (readLine n stream).2 = stream := by
  fun_induction readLine n stream with
  | case1 stream => rfl
  | case2 n => rfl
  | case3 n stream => rfl
  | case4 n b stream hb line rest hline ih =>
    rw [hline] at ih
    exact congrArg (List.cons b) ih

/-- `fgets` into a buffer of the given size: the line and what is left of the
stream, or a null pointer at the end of the stream. -/
def fgets (size : Nat) : List Byte → Option (List Byte × List Byte)
  | [] => none
  | b :: stream => some (readLine (size - 1) (b :: stream))

/-- What is read is taken from the stream, and it is not nothing. -/
theorem fgets_some {size : Nat} (hsize : 2 ≤ size) {stream line rest : List Byte}
    (h : fgets size stream = some (line, rest)) : line ≠ [] ∧ line ++ rest = stream := by
  cases stream with
  | nil => cases h
  | cons b stream =>
    have hread : readLine (size - 1) (b :: stream) = (line, rest) := Option.some.inj h
    have happend := readLine_append (size - 1) (b :: stream)
    rw [hread] at happend
    refine ⟨?_, happend⟩
    rintro rfl
    obtain ⟨n, hn⟩ : ∃ n, size - 1 = n + 1 := ⟨size - 2, by omega⟩
    rw [hn, readLine] at hread
    split at hread <;> cases hread

/-! ## The lines of a stream -/

/-- The lines, each with its newline, which the last one may lack. -/
def linesOf : List Byte → List (List Byte)
  | [] => []
  | b :: stream =>
    if b = newline then [b] :: linesOf stream
    else match linesOf stream with
      | [] => [[b]]
      | line :: lines => (b :: line) :: lines

theorem linesOf_eq_nil {stream : List Byte} : linesOf stream = [] ↔ stream = [] := by
  fun_cases linesOf stream <;> simp

/-- No line is empty. -/
theorem linesOf_ne_nil {stream line : List Byte} {lines : List (List Byte)}
    (h : linesOf stream = line :: lines) : line ≠ [] := by
  rintro rfl
  unfold linesOf at h
  split at h
  · cases h
  · split at h
    · cases h
    · split at h <;> cases h

/-- A line that fits is read whole, and the other lines are left. -/
theorem readLine_linesOf {stream line : List Byte} {lines : List (List Byte)} {n : Nat}
    (h : linesOf stream = line :: lines) (hfits : line.length ≤ n) :
    (readLine n stream).1 = line ∧ linesOf (readLine n stream).2 = lines := by
  induction stream generalizing line lines n with
  | nil => cases h
  | cons b stream ih =>
    have hpos : 0 < line.length := List.length_pos_iff.2 (linesOf_ne_nil h)
    obtain ⟨m, rfl⟩ : ∃ m, n = m + 1 := ⟨n - 1, by omega⟩
    unfold linesOf at h
    rw [readLine]
    by_cases hb : b = newline
    · rw [if_pos hb] at h ⊢
      cases h
      exact ⟨by rw [hb], rfl⟩
    · rw [if_neg hb] at h ⊢
      cases hrest : linesOf stream with
      | nil =>
        obtain rfl := linesOf_eq_nil.1 hrest
        cases h
        cases m <;> exact ⟨rfl, rfl⟩
      | cons line' lines' =>
        rw [hrest] at h
        cases h
        obtain ⟨hline, hlines⟩ := ih hrest (Nat.le_of_succ_le_succ hfits)
        exact ⟨congrArg (List.cons b) hline, hlines⟩

theorem fgets_linesOf {stream line : List Byte} {lines : List (List Byte)} {size : Nat}
    (h : linesOf stream = line :: lines) (hfits : line.length < size) :
    ∃ rest, fgets size stream = some (line, rest) ∧ linesOf rest = lines := by
  cases stream with
  | nil => cases h
  | cons b stream =>
    obtain ⟨hline, hlines⟩ := readLine_linesOf (n := size - 1) h (by omega)
    exact ⟨_, by rw [fgets, ← hline], hlines⟩

end CLib
