import Mathlib.Algebra.GroupWithZero.Nat
import Mathlib.Data.FinEnum
import Mathlib.Data.List.TakeWhile
import Mathlib.Tactic.Common

/-!
# The text of an SQL statement

MySQL's lexical rules, as far as they decide what is quoted: string literals
between single or double quotes, with doubled quotes and backslash escapes,
names between backticks, and comments. Everything else is code, byte by byte;
a version comment (`/*!`) is code as well, as the server executes it.

A statement printed from a template with its values between single quotes
reads back as that template just when every value is inert: it has no single
quote, and a backslash only before `%` or `_` (`Template.elements_text_iff`).
-/

namespace Sql

def quote : UInt8 := 39
def doubleQuote : UInt8 := 34
def backtick : UInt8 := 96
def backslash : UInt8 := 92
def percent : UInt8 := 37
def underscore : UInt8 := 95
def newline : UInt8 := 10
def hash : UInt8 := 35
def dash : UInt8 := 45
def slash : UInt8 := 47
def star : UInt8 := 42
def bang : UInt8 := 33

inductive Element
  | code (b : UInt8)
  | literal (q : UInt8) (value : List UInt8)
  | name (value : List UInt8)
  | comment (text : List UInt8)
deriving DecidableEq

/-- The bytes that an element takes at least. -/
def Element.size : Element → Nat
  | .code _ => 1
  | .literal _ value => value.length + 2
  | .name value => value.length + 2
  | .comment text => text.length

def size (es : List Element) : Nat := (es.map Element.size).sum

@[simp] theorem size_nil : size [] = 0 := rfl

@[simp] theorem size_cons (e : Element) (es : List Element) : size (e :: es) = e.size + size es :=
  rfl

@[simp] theorem size_append (es es' : List Element) : size (es ++ es') = size es + size es' := by
  simp only [size, List.map_append, List.sum_append]

/-- What a backslash and a byte stand for in a string literal. -/
def escape (c : UInt8) : List UInt8 :=
  if c = 48 then [0]
  else if c = 98 then [8]
  else if c = 110 then [10]
  else if c = 114 then [13]
  else if c = 116 then [9]
  else if c = 90 then [26]
  else if c = percent ∨ c = underscore then [backslash, c]
  else [c]

/-- The value of a quoted text, up to its closing quote, and what follows it.
A doubled quote stands for one, and with `escapes` a backslash and the byte
behind it are taken together. -/
def scan (escapes : Bool) (q : UInt8) : List UInt8 → Option (List UInt8 × List UInt8)
  | [] => none
  | [b] => if b = q then some ([], []) else none
  | b :: c :: rest =>
    if escapes ∧ b = backslash then
      (scan escapes q rest).map fun r => (escape c ++ r.1, r.2)
    else if b = q then
      if c = q then (scan escapes q rest).map fun r => (q :: r.1, r.2)
      else some ([], c :: rest)
    else (scan escapes q (c :: rest)).map fun r => (b :: r.1, r.2)

/-- The text of a comment behind its opening mark, up to its closing mark, and
what follows it. -/
def scanComment : List UInt8 → Option (List UInt8 × List UInt8)
  | [] => none
  | [_] => none
  | b :: c :: rest =>
    if b = star ∧ c = slash then some ([], rest)
    else (scanComment (c :: rest)).map fun r => (b :: r.1, r.2)

/-- A comment to the end of the line starts here: `#`, or `--` before a blank,
a control character or the end. -/
def opensLine (b : UInt8) (rest : List UInt8) : Bool :=
  b = hash ∨ (b = dash ∧ rest.head? = some dash ∧ ∀ c ∈ rest.tail.head?, c ≤ 32 ∨ c = 127)

/-- A comment up to its closing mark starts here. -/
def opensBlock (b : UInt8) (rest : List UInt8) : Bool :=
  b = slash ∧ rest.head? = some star ∧ rest.tail.head? ≠ some bang

/-- The elements of a text, at most so many; none when a quoted text or a
comment is not closed. -/
def lex : Nat → List UInt8 → Option (List Element)
  | _, [] => some []
  | 0, _ :: _ => none
  | fuel + 1, b :: rest =>
    if b = quote ∨ b = doubleQuote then
      (scan true b rest).bind fun r => (lex fuel r.2).map (.literal b r.1 :: ·)
    else if b = backtick then
      (scan false b rest).bind fun r => (lex fuel r.2).map (.name r.1 :: ·)
    else if opensLine b rest then
      (lex fuel (rest.dropWhile (· ≠ newline))).map
        (.comment (b :: rest.takeWhile (· ≠ newline)) :: ·)
    else if opensBlock b rest then
      (scanComment rest.tail).bind fun r =>
        (lex fuel r.2).map (.comment (slash :: star :: r.1 ++ [star, slash]) :: ·)
    else (lex fuel rest).map (.code b :: ·)

/-- The elements of a text. Each takes a byte at least. -/
def elements (text : List UInt8) : Option (List Element) := lex text.length text

/-! ## What reads as itself -/

/-- A value that reads as itself between quotes: it has no quote, and a
backslash only right before `%` or `_`. -/
def Inert (q : UInt8) : List UInt8 → Prop
  | [] => True
  | b :: rest => b ≠ q ∧
      (b = backslash → rest.head? = some percent ∨ rest.head? = some underscore) ∧ Inert q rest

instance (q : UInt8) : (v : List UInt8) → Decidable (Inert q v)
  | [] => inferInstanceAs (Decidable True)
  | _ :: rest =>
    have := instDecidableInert q rest
    inferInstanceAs (Decidable (_ ∧ _ ∧ _))

/-- A byte that is code wherever it stands outside of quotes and comments. -/
def Plain (b : UInt8) : Prop :=
  b ∉ [quote, doubleQuote, backtick, hash, dash, slash]

instance (b : UInt8) : Decidable (Plain b) := inferInstanceAs (Decidable (_ ∉ _))

theorem plain_of_all {cs : List UInt8} (h : cs.all (fun b => decide (Plain b)) = true) :
    ∀ b ∈ cs, Plain b := fun b hb => of_decide_eq_true (List.all_eq_true.1 h b hb)

/-- The quotes of string literals. -/
def IsQuote (q : UInt8) : Prop := q = quote ∨ q = doubleQuote

theorem IsQuote.ne {q : UInt8} (hq : IsQuote q) : q ≠ backslash ∧ q ≠ percent ∧ q ≠ underscore := by
  rcases hq with rfl | rfl
  · decide
  · decide

/-- Values without quotes and backslashes are inert. -/
theorem Inert.of_forall {q : UInt8} {v : List UInt8} (h : ∀ b ∈ v, b ≠ q ∧ b ≠ backslash) :
    Inert q v := by
  induction v with
  | nil => trivial
  | cons b v ih =>
    obtain ⟨hq, hb⟩ := h b List.mem_cons_self
    exact ⟨hq, fun hslash => absurd hslash hb, ih fun c hc => h c (List.mem_cons_of_mem _ hc)⟩

theorem length_escape (c : UInt8) :
    (escape c).length = 1 ∨ escape c = [backslash, c] ∧ (c = percent ∨ c = underscore) := by
  unfold escape
  split_ifs with _ _ _ _ _ _ h
  all_goals first | exact .inl rfl | exact .inr ⟨rfl, h⟩

/-- A quoted text takes a byte for each of its value and one for its quote; if
it takes no more, its value is inert. -/
theorem scan_length {escapes : Bool} {q : UInt8} {bs v rest : List UInt8}
    (h : scan escapes q bs = some (v, rest)) : v.length + 1 + rest.length ≤ bs.length ∧
      (escapes = true → IsQuote q → v.length + 1 + rest.length = bs.length → Inert q v) := by
  fun_induction scan escapes q bs generalizing v with
  | case1 => cases h
  | case2 =>
    cases h
    exact ⟨Nat.le_refl _, fun _ _ _ => trivial⟩
  | case3 => cases h
  | case4 b c tail hescape ih =>
    obtain ⟨r, hscan, hr⟩ := Option.map_eq_some_iff.1 h
    obtain ⟨rfl, rfl⟩ := Prod.mk.inj hr
    obtain ⟨hle, hinert⟩ := ih hscan
    rcases length_escape c with hone | ⟨htwo, hc⟩
    · simp only [List.length_append, List.length_cons, hone]
      exact ⟨by omega, fun _ _ heq => by omega⟩
    · rw [htwo]
      simp only [List.length_append, List.length_cons, List.length_nil]
      refine ⟨by omega, fun hesc hq heq => ?_⟩
      obtain ⟨hslash, hpercent, hunderscore⟩ := hq.ne
      have hcq : c ≠ q := by
        rcases hc with rfl | rfl
        · exact hpercent.symm
        · exact hunderscore.symm
      have hcslash : c ≠ backslash := by
        rcases hc with rfl | rfl <;> decide
      refine ⟨hslash.symm, fun _ => ?_, hcq, fun hb => absurd hb hcslash,
        hinert hesc hq (by omega)⟩
      exact hc.imp (congrArg some) (congrArg some)
  | case5 tail _ ih =>
    obtain ⟨r, hscan, hr⟩ := Option.map_eq_some_iff.1 h
    obtain ⟨rfl, rfl⟩ := Prod.mk.inj hr
    obtain ⟨hle, _⟩ := ih hscan
    simp only [List.length_cons]
    exact ⟨by omega, fun _ _ heq => by omega⟩
  | case6 =>
    cases h
    exact ⟨by simp only [List.length_nil, List.length_cons]; omega, fun _ _ _ => trivial⟩
  | case7 b c tail hno hne ih =>
    obtain ⟨r, hscan, hr⟩ := Option.map_eq_some_iff.1 h
    obtain ⟨rfl, rfl⟩ := Prod.mk.inj hr
    obtain ⟨hle, hinert⟩ := ih hscan
    simp only [List.length_cons] at hle hinert ⊢
    refine ⟨by omega, fun hesc hq heq => ⟨hne, fun hb => absurd ⟨hesc, hb⟩ hno, ?_⟩⟩
    exact hinert hesc hq (by omega)

/-- An inert value is read up to its closing quote. -/
theorem scan_inert {q : UInt8} (hq : IsQuote q) {rest : List UInt8} (hrest : rest.head? ≠ some q) :
    ∀ {v : List UInt8}, Inert q v → scan true q (v ++ q :: rest) = some (v, rest)
  | [], _ => by
    have hslash := hq.ne.1
    cases rest with
    | nil => simp [scan]
    | cons c rest =>
      have hc : c ≠ q := fun h => hrest (congrArg some h)
      simp [scan, hslash, hc]
  | [b], ⟨hbq, hb, _⟩ => by
    have hslash : b ≠ backslash := fun h => by simpa using hb h
    have hclose := scan_inert hq hrest (v := []) trivial
    rw [List.nil_append] at hclose
    simp [scan, hslash, hbq, hclose]
  | b :: c :: v, ⟨hbq, hb, hcv⟩ => by
    by_cases hslash : b = backslash
    · obtain ⟨_, _, hv⟩ := hcv
      have hescape : escape c = [backslash, c] := by
        rcases hb hslash with h | h
        · obtain rfl : c = percent := Option.some.inj h
          decide
        · obtain rfl : c = underscore := Option.some.inj h
          decide
      have hclose := scan_inert hq hrest hv
      simp [scan, hslash, hescape, hclose]
    · have hclose := scan_inert hq hrest hcv
      rw [List.cons_append] at hclose
      simp [scan, hslash, hbq, hclose]

theorem scanComment_length {bs text rest : List UInt8} (h : scanComment bs = some (text, rest)) :
    text.length + 2 + rest.length = bs.length := by
  fun_induction scanComment bs generalizing text with
  | case1 => cases h
  | case2 => cases h
  | case3 b c tail hclose =>
    cases h
    simp only [List.length_nil, List.length_cons]
    omega
  | case4 b c tail hno ih =>
    obtain ⟨⟨w, rest'⟩, hscan, hr⟩ := Option.map_eq_some_iff.1 h
    obtain ⟨rfl, rfl⟩ := Prod.mk.inj hr
    have hlength := ih hscan
    simp only [List.length_cons] at hlength ⊢
    omega

theorem opensBlock_tail {b : UInt8} {rest : List UInt8} (h : opensBlock b rest = true) :
    rest = star :: rest.tail := by
  have hstar : rest.head? = some star := (of_decide_eq_true h).2.1
  cases rest with
  | nil => cases hstar
  | cons c rest => rw [Option.some.inj hstar]; rfl

/-- The elements of a text take no more than its bytes, and when they take all
of them the string literals are inert. -/
theorem lex_size {fuel : Nat} {bs : List UInt8} {es : List Element} (h : lex fuel bs = some es) :
    size es ≤ bs.length ∧
      (size es = bs.length → ∀ q v, .literal q v ∈ es → Inert q v) := by
  fun_induction lex fuel bs generalizing es with
  | case1 =>
    cases h
    exact ⟨Nat.le_refl _, fun _ _ _ hmem => absurd hmem List.not_mem_nil⟩
  | case2 => cases h
  | case3 fuel b rest hq ih =>
    obtain ⟨r, hscan, hr⟩ := Option.bind_eq_some_iff.1 h
    obtain ⟨es', hlex, rfl⟩ := Option.map_eq_some_iff.1 hr
    obtain ⟨hle, hinert⟩ := ih r hlex
    obtain ⟨hvalue, hvalueInert⟩ := scan_length hscan
    simp only [size_cons, Element.size, List.length_cons]
    refine ⟨by omega, fun heq q v hmem => ?_⟩
    rcases List.mem_cons.1 hmem with hhere | hlater
    · cases hhere
      exact hvalueInert rfl hq (by omega)
    · exact hinert (by omega) q v hlater
  | case4 fuel rest _ ih =>
    obtain ⟨r, hscan, hr⟩ := Option.bind_eq_some_iff.1 h
    obtain ⟨es', hlex, rfl⟩ := Option.map_eq_some_iff.1 hr
    obtain ⟨hle, hinert⟩ := ih r hlex
    obtain ⟨hvalue, _⟩ := scan_length hscan
    simp only [size_cons, Element.size, List.length_cons]
    refine ⟨by omega, fun heq q v hmem => hinert (by omega) q v ?_⟩
    exact (List.mem_cons.1 hmem).resolve_left (fun hhere => by cases hhere)
  | case5 fuel b rest _ _ hline ih =>
    obtain ⟨es', hlex, rfl⟩ := Option.map_eq_some_iff.1 h
    obtain ⟨hle, hinert⟩ := ih hlex
    have hsplit := congrArg List.length (rest.takeWhile_append_dropWhile (p := (· ≠ newline)))
    rw [List.length_append] at hsplit
    simp only [size_cons, Element.size, List.length_cons]
    refine ⟨by omega, fun heq q v hmem => hinert (by omega) q v ?_⟩
    exact (List.mem_cons.1 hmem).resolve_left (fun hhere => by cases hhere)
  | case6 fuel b rest _ _ _ hblock ih =>
    obtain ⟨r, hscan, hr⟩ := Option.bind_eq_some_iff.1 h
    obtain ⟨es', hlex, rfl⟩ := Option.map_eq_some_iff.1 hr
    obtain ⟨hle, hinert⟩ := ih r hlex
    have hcomment := scanComment_length hscan
    rw [opensBlock_tail hblock]
    simp only [size_cons, Element.size, List.length_cons, List.length_append, List.length_nil]
    refine ⟨by omega, fun heq q v hmem => hinert (by omega) q v ?_⟩
    exact (List.mem_cons.1 hmem).resolve_left (fun hhere => by cases hhere)
  | case7 fuel b rest _ _ _ _ ih =>
    obtain ⟨es', hlex, rfl⟩ := Option.map_eq_some_iff.1 h
    obtain ⟨hle, hinert⟩ := ih hlex
    simp only [size_cons, Element.size, List.length_cons]
    refine ⟨by omega, fun heq q v hmem => hinert (by omega) q v ?_⟩
    exact (List.mem_cons.1 hmem).resolve_left (fun hhere => by cases hhere)

/-- More elements than bytes are never needed. -/
theorem lex_fuel {n m : Nat} {bs : List UInt8} (hn : bs.length ≤ n) (hm : bs.length ≤ m) :
    lex n bs = lex m bs := by
  induction n generalizing m bs with
  | zero =>
    obtain rfl := List.length_eq_zero_iff.1 (Nat.le_zero.1 hn)
    cases m <;> rfl
  | succ n ih =>
    cases bs with
    | nil => cases m <;> rfl
    | cons b rest =>
      cases m with
      | zero => cases hm
      | succ m =>
        simp only [List.length_cons, Nat.add_le_add_iff_right] at hn hm
        have hafter {r : List UInt8} (h : r.length ≤ rest.length) : lex n r = lex m r :=
          ih (h.trans hn) (h.trans hm)
        have hscan (escapes : Bool) (q : UInt8) (f : List UInt8 → List Element → List Element) :
            ((scan escapes q rest).bind fun r => (lex n r.2).map (f r.1)) =
              (scan escapes q rest).bind fun r => (lex m r.2).map (f r.1) := by
          refine Option.bind_congr fun r hr => ?_
          rw [hafter]
          have := (scan_length hr).1
          omega
        have hcomment (f : List UInt8 → List Element → List Element) :
            ((scanComment rest.tail).bind fun r => (lex n r.2).map (f r.1)) =
              (scanComment rest.tail).bind fun r => (lex m r.2).map (f r.1) := by
          refine Option.bind_congr fun r hr => ?_
          rw [hafter]
          have := scanComment_length hr
          rw [List.length_tail] at this
          omega
        simp only [lex]
        split_ifs
        · exact hscan true b fun v es => .literal b v :: es
        · exact hscan false b fun v es => .name v :: es
        · rw [hafter (List.length_dropWhile_le _ _)]
        · exact hcomment fun text es => .comment (slash :: star :: text ++ [star, slash]) :: es
        · rw [hafter (Nat.le_refl _)]

theorem elements_of_lex {n : Nat} {bs : List UInt8} (hn : bs.length ≤ n) :
    lex n bs = elements bs :=
  lex_fuel hn (Nat.le_refl _)

@[simp] theorem elements_nil : elements [] = some [] := rfl

theorem elements_code {b : UInt8} {rest : List UInt8} (hb : Plain b) :
    elements (b :: rest) = (elements rest).map (.code b :: ·) := by
  simp only [Plain, List.mem_cons, List.not_mem_nil, or_false, not_or] at hb
  obtain ⟨hquote, hdouble, hbacktick, hhash, hdash, hslash⟩ := hb
  have hline : opensLine b rest = false := by simp [opensLine, hhash, hdash]
  have hblock : opensBlock b rest = false := by simp [opensBlock, hslash]
  show lex (rest.length + 1) (b :: rest) = _
  rw [lex, if_neg (by simp [hquote, hdouble]), if_neg hbacktick, hline, hblock]
  rfl

theorem elements_codes {cs rest : List UInt8} (hcs : ∀ b ∈ cs, Plain b) :
    elements (cs ++ rest) = (elements rest).map (cs.map .code ++ ·) := by
  induction cs with
  | nil => simp
  | cons b cs ih =>
    rw [List.cons_append, elements_code (hcs b List.mem_cons_self),
      ih fun c hc => hcs c (List.mem_cons_of_mem _ hc), Option.map_map]
    rfl

/-- An inert value between quotes is one literal. -/
theorem elements_literal {q : UInt8} (hq : IsQuote q) {v rest : List UInt8} (hv : Inert q v)
    (hrest : rest.head? ≠ some q) :
    elements (q :: (v ++ q :: rest)) = (elements rest).map (.literal q v :: ·) := by
  have hquotes : q = quote ∨ q = doubleQuote := hq
  show lex ((v ++ q :: rest).length + 1) (q :: (v ++ q :: rest)) = _
  rw [lex, if_pos hquotes, scan_inert hq hrest hv, Option.bind_some, elements_of_lex]
  simp only [List.length_append, List.length_cons]
  omega

/-! ## Templates -/

/-- A statement to be printed: fields, each a value behind some code, and the
code behind them. -/
structure Template where
  fields : List (List UInt8 × List UInt8)
  tail : List UInt8

namespace Template

/-- The statement with each value between single quotes. -/
def text (t : Template) : List UInt8 :=
  t.fields.foldr (fun f rest => f.1 ++ quote :: (f.2 ++ quote :: rest)) t.tail

/-- What the statement is meant to be. -/
def elements (t : Template) : List Element :=
  t.fields.foldr (fun f rest => f.1.map .code ++ .literal quote f.2 :: rest) (t.tail.map .code)

/-- The code of a template cannot be taken for anything else, and separates
the values. -/
structure Separates (t : Template) : Prop where
  code : ∀ f ∈ t.fields, f.1 ≠ [] ∧ ∀ b ∈ f.1, Plain b
  tail : ∀ b ∈ t.tail, Plain b

/-- What follows a closing quote is not a quote. -/
theorem Separates.head_ne {t : Template} (ht : t.Separates) : t.text.head? ≠ some quote := by
  obtain ⟨fields, tail⟩ := t
  have hplain : ¬ Plain quote := by decide
  cases fields with
  | nil =>
    intro hhead
    exact hplain (ht.tail quote (List.mem_of_mem_head? hhead))
  | cons f fields =>
    obtain ⟨hne, hcode⟩ := ht.code f List.mem_cons_self
    obtain ⟨b, cs, hf⟩ := List.exists_cons_of_ne_nil hne
    intro hhead
    rw [text, List.foldr_cons, hf] at hhead
    obtain rfl := Option.some.inj hhead
    exact hplain (hcode quote (hf ▸ List.mem_cons_self))

theorem size_elements (t : Template) : size t.elements = t.text.length := by
  obtain ⟨fields, tail⟩ := t
  have hcode (cs : List UInt8) : size (cs.map .code) = cs.length := by
    induction cs with
    | nil => rfl
    | cons b cs ih =>
      simp only [List.map_cons, size_cons, Element.size, List.length_cons, ih]
      omega
  induction fields with
  | nil => exact hcode tail
  | cons f fields ih =>
    simp only [text, elements, List.foldr_cons, size_append, size_cons, Element.size, hcode,
      List.length_append, List.length_cons] at ih ⊢
    omega

theorem literal_mem_elements {t : Template} {f : List UInt8 × List UInt8} (hf : f ∈ t.fields) :
    .literal quote f.2 ∈ t.elements := by
  obtain ⟨fields, tail⟩ := t
  induction fields with
  | nil => cases hf
  | cons g fields ih =>
    refine List.mem_append_right _ ?_
    rcases List.mem_cons.1 hf with rfl | hlater
    · exact List.mem_cons_self
    · exact List.mem_cons_of_mem _ (ih hlater)

/-- A statement with inert values reads back as its template. -/
theorem elements_text {t : Template} (ht : t.Separates) (hv : ∀ f ∈ t.fields, Inert quote f.2) :
    Sql.elements t.text = some t.elements := by
  obtain ⟨fields, tail⟩ := t
  induction fields with
  | nil =>
    have htail := @elements_codes tail [] ht.tail
    rw [List.append_nil] at htail
    show Sql.elements tail = some (tail.map .code)
    rw [htail]
    simp
  | cons f fields ih =>
    have hfields : Separates ⟨fields, tail⟩ :=
      ⟨fun g hg => ht.code g (List.mem_cons_of_mem _ hg), ht.tail⟩
    have hrest := ih hfields fun g hg => hv g (List.mem_cons_of_mem _ hg)
    have hhead := hfields.head_ne
    show Sql.elements (f.1 ++ quote :: (f.2 ++ quote :: text ⟨fields, tail⟩)) = _
    rw [elements_codes (ht.code f List.mem_cons_self).2,
      elements_literal (.inl rfl) (hv f List.mem_cons_self) hhead, hrest]
    rfl

/-- **A statement of which at most `n` bytes are sent reads as its template
just when its values are inert and it is no longer than that.** -/
theorem elements_take_iff {t : Template} (ht : t.Separates) {n : Nat} :
    Sql.elements (t.text.take n) = some t.elements ↔
      (∀ f ∈ t.fields, Inert quote f.2) ∧ t.text.length ≤ n := by
  constructor
  · intro h
    obtain ⟨hle, hinert⟩ := lex_size h
    rw [size_elements, List.length_take] at hle hinert
    exact ⟨fun f hf => hinert (by omega) quote f.2 (literal_mem_elements hf), by omega⟩
  · rintro ⟨hv, hn⟩
    rw [List.take_of_length_le hn]
    exact elements_text ht hv

end Template

end Sql
