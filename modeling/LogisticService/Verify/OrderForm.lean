import LogisticService.Client.OrderForm

/-!
# The lines of an order form

Each question of the form reads at most 99 bytes and leaves the rest of a line
for the next question. The fields keep their lines just when none of the first
ten lines is longer than that; the eleventh has no question after it.
-/

namespace LogisticService

open CLib

/-- A line of input, with some blank lines before it. -/
structure FormEntry where
  blanks : Nat
  line : CString
  nonempty : line ≠ .empty
  oneLine : newline ∉ line.bytes

/-- What of a line fits the buffer. -/
def FormEntry.answer (e : FormEntry) : CString := e.line.take (BUFFER_LIMIT - 1)

/-- The input that holds the entries. -/
def inputOf (rest : List Byte) : List FormEntry → List Byte
  | [] => rest
  | e :: es => List.replicate e.blanks newline ++ (e.line.bytes ++ newline :: inputOf rest es)

/-- The input of the entries is unread. The newline of the line before may be
unread too. -/
def Unread (rest : List Byte) (es : List FormEntry) (t : Terminal) : Prop :=
  t.stdin = inputOf rest es ∨ t.stdin = newline :: inputOf rest es

/-- Each question is asked when the line that answers it is the first unread. -/
def Unspilled (rest : List Byte) : List FormField → List FormEntry → Terminal → Prop
  | field :: fields, e :: es, t => Unread rest (e :: es) t ∧
      Unspilled rest fields es (getNonEmptyInput field.prompt BUFFER_LIMIT t).2
  | _, _, _ => True

/-- Every field holds what fits the buffer of its own line, and no line reaches
into the next question. -/
structure KeepsLines (json : CJson) (uuid date : CString) (rest : List Byte)
    (es : List FormEntry) (t : Terminal) : Prop where
  stored : ∀ field e, (field, e) ∈ formFields.zip es →
    (updateJsonWithUserInput json uuid date t).1.get field.path = some (field.item e.answer)
  unspilled : Unspilled rest formFields es t

/-- The tree has a value for every field. -/
def HasFields (json : CJson) : Prop :=
  ∀ field ∈ formFields, (json.get field.path).isSome

/-! ## One question -/

theorem lineOf_newline {s : CString} (h : newline ∉ s.bytes) :
    lineOf (s.bytes ++ [newline]) = s := by
  have hall : 0 ∉ s.bytes ++ [newline] := by
    rw [List.mem_append, not_or]
    exact ⟨s.nulFree, by decide⟩
  apply CString.ext
  show (CString.ofBytes _).bytes.takeWhile (· ≠ newline) = s.bytes
  rw [CString.ofBytes_nulFree hall, List.takeWhile_append_of_pos,
    List.takeWhile_cons_of_neg (by simp), List.append_nil]
  intro b hb
  have hne : b ≠ newline := fun heq => h (heq ▸ hb)
  simpa using hne

theorem lineOf_bytes {s : CString} (h : newline ∉ s.bytes) : lineOf s.bytes = s := by
  apply CString.ext
  show (CString.ofBytes _).bytes.takeWhile (· ≠ newline) = s.bytes
  rw [CString.ofBytes_nulFree s.nulFree, List.takeWhile_eq_self_iff]
  intro b hb
  have hne : b ≠ newline := fun heq => h (heq ▸ hb)
  simpa using hne

/-- What is unread after the question that a line answers. -/
def afterLine (line : CString) (stream : List Byte) : List Byte :=
  if line.bytes.length < BUFFER_LIMIT - 1 then stream
  else line.bytes.drop (BUFFER_LIMIT - 1) ++ newline :: stream

theorem askAgain_some {prompt : String} {size turns : Nat} {t : Terminal} {line stdin : List Byte}
    (h : fgets size t.stdin = some (line, stdin)) : askAgain prompt size (turns + 1) t =
      if lineOf line = .empty then askAgain prompt size turns ⟨stdin, t.stdout ++ [prompt]⟩
      else (lineOf line, ⟨stdin, t.stdout ++ [prompt]⟩) := by
  rw [askAgain]
  simp only [h]

theorem fgets_line {bs : List Byte} (size : Nat) (stream : List Byte) :
    fgets size (bs ++ newline :: stream) =
      some (readLine (size - 1) (bs ++ newline :: stream)) := by
  cases bs <;> rfl

/-- A line that is not empty answers the question. -/
theorem askAgain_first {prompt : String} {line : CString} (hne : line ≠ .empty)
    (hone : newline ∉ line.bytes) {stream : List Byte} {turns : Nat} {t : Terminal}
    (hstdin : t.stdin = line.bytes ++ newline :: stream) :
    askAgain prompt BUFFER_LIMIT (turns + 1) t =
      (line.take (BUFFER_LIMIT - 1), ⟨afterLine line stream, t.stdout ++ [prompt]⟩) := by
  have hread := @fgets_line line.bytes BUFFER_LIMIT stream
  rw [readLine_line hone, ← hstdin] at hread
  unfold afterLine
  split at hread
  · next hshort =>
    have htake : line.take (BUFFER_LIMIT - 1) = line :=
      CString.take_of_length_le (Nat.le_of_lt hshort)
    rw [askAgain_some hread, lineOf_newline hone, if_neg hne, if_pos hshort, htake]
  · next hlong =>
    have hcut : newline ∉ (line.take (BUFFER_LIMIT - 1)).bytes :=
      fun h => hone (List.mem_of_mem_take h)
    have hread' : lineOf (line.bytes.take (BUFFER_LIMIT - 1)) = line.take (BUFFER_LIMIT - 1) :=
      lineOf_bytes hcut
    have hfull : line.take (BUFFER_LIMIT - 1) ≠ .empty := by
      intro h
      have hlength := congrArg (fun s : CString => s.bytes.length) h
      simp only [CString.take, CString.empty, List.length_take, List.length_nil,
        BUFFER_LIMIT] at hlength hlong
      omega
    rw [askAgain_some hread, hread', if_neg hfull, if_neg hlong]

/-- A question is asked again for every blank line, and answered by the line
behind them. -/
theorem askAgain_line {prompt : String} {line : CString} (hne : line ≠ .empty)
    (hone : newline ∉ line.bytes) {stream : List Byte} {n turns : Nat} (hturns : n < turns)
    {t : Terminal}
    (hstdin : t.stdin = List.replicate n newline ++ (line.bytes ++ newline :: stream)) :
    (askAgain prompt BUFFER_LIMIT turns t).1 = line.take (BUFFER_LIMIT - 1) ∧
      (askAgain prompt BUFFER_LIMIT turns t).2.stdin = afterLine line stream := by
  induction n generalizing turns t with
  | zero =>
    obtain ⟨turns, rfl⟩ := Nat.exists_eq_succ_of_ne_zero (Nat.ne_of_gt hturns)
    rw [askAgain_first hne hone hstdin]
    exact ⟨rfl, rfl⟩
  | succ n ih =>
    obtain ⟨turns, rfl⟩ := Nat.exists_eq_succ_of_ne_zero (Nat.ne_of_gt (Nat.zero_lt_of_lt hturns))
    have hread : fgets BUFFER_LIMIT t.stdin =
        some ([newline], List.replicate n newline ++ (line.bytes ++ newline :: stream)) := by
      rw [hstdin]
      rfl
    have hblank : lineOf [newline] = .empty := by decide
    rw [askAgain_some hread, if_pos hblank]
    exact ih (Nat.lt_of_succ_lt_succ hturns) rfl

/-- The question of an entry is answered by its line. -/
theorem getNonEmptyInput_entry (prompt : String) {e : FormEntry} {rest : List Byte}
    {es : List FormEntry} {t : Terminal} (h : Unread rest (e :: es) t) :
    (getNonEmptyInput prompt BUFFER_LIMIT t).1 = e.answer ∧
      (getNonEmptyInput prompt BUFFER_LIMIT t).2.stdin = afterLine e.line (inputOf rest es) := by
  rcases h with hstdin | hstdin
  · refine askAgain_line e.nonempty e.oneLine (n := e.blanks) ?_ hstdin
    rw [hstdin, inputOf, List.length_append, List.length_replicate]
    omega
  · refine askAgain_line e.nonempty e.oneLine (n := e.blanks + 1) ?_ hstdin
    rw [hstdin, inputOf, List.length_cons, List.length_append, List.length_replicate]
    omega

/-! ## The whole form -/

/-- Only a line that fits leaves the next one first. -/
theorem unread_afterLine_iff {e : FormEntry} {rest : List Byte} {es : List FormEntry}
    {t : Terminal} (h : t.stdin = afterLine e.line (inputOf rest es)) :
    Unread rest es t ↔ e.line.bytes.length ≤ BUFFER_LIMIT - 1 := by
  unfold Unread
  rw [h]
  unfold afterLine
  split
  · next hshort => exact iff_of_true (.inl rfl) (Nat.le_of_lt hshort)
  · next hlong =>
    constructor
    · rintro (heq | heq)
      all_goals
        have hlength := congrArg List.length heq
        simp only [List.length_append, List.length_drop, List.length_cons] at hlength
        omega
    · intro hfits
      rw [List.drop_eq_nil_of_le hfits]
      exact .inr rfl

/-- The lines of a form stay with their questions just when each but the last
one fits. -/
theorem unspilled_iff {rest : List Byte} {fields : List FormField} {es : List FormEntry}
    (hlength : fields.length = es.length) {t : Terminal} (h : Unread rest es t) :
    Unspilled rest fields es t ↔ ∀ e ∈ es.dropLast, e.line.bytes.length ≤ BUFFER_LIMIT - 1 := by
  induction es generalizing fields t with
  | nil =>
    obtain rfl := List.length_eq_zero_iff.1 hlength
    simp [Unspilled]
  | cons e es ih =>
    obtain ⟨field, fields, rfl⟩ := List.exists_cons_of_length_eq_add_one hlength
    replace hlength : fields.length = es.length := Nat.succ.inj hlength
    have hnext := (getNonEmptyInput_entry field.prompt h).2
    cases es with
    | nil =>
      obtain rfl := List.length_eq_zero_iff.1 hlength
      exact iff_of_true ⟨h, trivial⟩ (by simp)
    | cons e' es =>
      rw [List.dropLast_cons_cons, List.forall_mem_cons, ← unread_afterLine_iff hnext, Unspilled]
      constructor
      · rintro ⟨_, hlater⟩
        obtain ⟨field', fields, rfl⟩ := List.exists_cons_of_length_eq_add_one hlength
        exact ⟨hlater.1, (ih hlength hlater.1).1 hlater⟩
      · rintro ⟨hunread, hfit⟩
        exact ⟨h, (ih hlength hunread).2 hfit⟩

/-- With every line at its question, the answers go into the tree. -/
theorem fillForm_eq {rest : List Byte} {fields : List FormField} {es : List FormEntry}
    (hlength : fields.length = es.length) {t : Terminal} (h : Unspilled rest fields es t)
    (json : CJson) : (fillForm fields json t).1 =
      json.replaceAll ((fields.zip es).map fun p => (p.1.path, p.1.item p.2.answer)) := by
  induction fields generalizing es json t with
  | nil => rfl
  | cons field fields ih =>
    obtain ⟨e, es, rfl⟩ := List.exists_cons_of_length_eq_add_one hlength.symm
    obtain ⟨hunread, hlater⟩ := h
    have hanswer := (getNonEmptyInput_entry field.prompt hunread).1
    show (fillForm fields (CJson.replaceItemInObject (field.item
      (getNonEmptyInput field.prompt BUFFER_LIMIT t).1) field.path json) _).1 = _
    rw [hanswer]
    exact ih (Nat.succ.inj hlength) hlater _

/-- The fields are at different places, and none is the id or the date. -/
theorem formFields_apart :
    formFields.Pairwise fun f g => CJson.Apart f.path g.path ∧ CJson.Apart g.path f.path := by
  decide +kernel

theorem formFields_apart_others : ∀ f ∈ formFields, f.path ≠ [] ∧
    CJson.Apart idPath f.path ∧ CJson.Apart datePath f.path := by
  decide +kernel

/-- When no line spills, every field holds what fits of its own line. -/
theorem stored_of_unspilled {json : CJson} (hfields : HasFields json) {uuid date : CString}
    {rest : List Byte} {es : List FormEntry} (hlength : formFields.length = es.length)
    {t : Terminal} (h : Unspilled rest formFields es t) {field : FormField} {e : FormEntry}
    (hmem : (field, e) ∈ formFields.zip es) :
    (updateJsonWithUserInput json uuid date t).1.get field.path = some (field.item e.answer) := by
  have hfield := (List.of_mem_zip hmem).1
  obtain ⟨_, _, hdate⟩ := formFields_apart_others field hfield
  show CJson.get field.path (CJson.replaceItemInObject (.string date) datePath
    (fillForm formFields _ t).1) = _
  rw [CJson.get_replace_apart _ hdate, fillForm_eq hlength h]
  refine CJson.get_replaceAll (i := (field.path, field.item e.answer)) ?_ ?_
    (List.mem_map.2 ⟨_, hmem, rfl⟩)
  · rw [List.pairwise_map]
    have hfst : (formFields.zip es).map Prod.fst = formFields :=
      List.map_fst_zip (Nat.le_of_eq hlength)
    have hpairs := formFields_apart
    rw [← hfst, List.pairwise_map] at hpairs
    exact hpairs
  · intro i hi
    obtain ⟨p, hp, rfl⟩ := List.mem_map.1 hi
    have hin := (List.of_mem_zip hp).1
    obtain ⟨hne, hid, _⟩ := formFields_apart_others p.1 hin
    exact ⟨hne, by rw [CJson.get_replace_apart _ hid]; exact hfields p.1 hin⟩

/-- **The fields of an order form keep their lines just when none of the first
ten is longer than 99 bytes**, however many blank lines stand between them. -/
theorem updateJson_keepsLines_iff {json : CJson} (hfields : HasFields json) (uuid date : CString)
    (rest : List Byte) {es : List FormEntry} (hlength : es.length = 11) (stdout : List String) :
    KeepsLines json uuid date rest es ⟨inputOf rest es, stdout⟩ ↔
      ∀ e ∈ es.dropLast, e.line.bytes.length ≤ 99 := by
  have hfield : formFields.length = es.length := hlength.symm
  have hunread : Unread rest es ⟨inputOf rest es, stdout⟩ := .inl rfl
  rw [← show BUFFER_LIMIT - 1 = 99 from rfl, ← unspilled_iff hfield hunread]
  constructor
  · exact fun h => h.unspilled
  · exact fun h => ⟨fun _ _ hmem => stored_of_unspilled hfields hfield h hmem, h⟩

/-! ## Short lines, and a long one -/

/-- A line of the form in plain letters. -/
def FormEntry.of (blanks : Nat) (text : String) (h : CString.ofBytes (bytesOf text) ≠ .empty ∧
    newline ∉ (CString.ofBytes (bytesOf text)).bytes) : FormEntry :=
  ⟨blanks, .ofBytes (bytesOf text), h.1, h.2⟩

/-- Ten lines that fit, behind a first one. -/
def formBehind (first : FormEntry) : List FormEntry :=
  [first, .of 0 "100" (by decide), .of 2 "hub" (by decide), .of 0 "200" (by decide),
    .of 0 "req" (by decide), .of 0 "P123" (by decide), .of 1 "Mouse" (by decide),
    .of 0 "10" (by decide), .of 0 "Message ABC" (by decide), .of 0 "HIGH" (by decide),
    .of 0 "TCP" (by decide)]

theorem requestFormat_hasFields : HasFields requestFormat := by
  unfold HasFields
  decide +kernel

theorem shortLines_kept : KeepsLines requestFormat .empty .empty []
    (formBehind (.of 0 "warehouse" (by decide)))
    ⟨inputOf [] (formBehind (.of 0 "warehouse" (by decide))), []⟩ :=
  (updateJson_keepsLines_iff requestFormat_hasFields .empty .empty [] rfl []).2 (by decide +kernel)

/-- A line of a hundred letters. -/
def longEntry : FormEntry where
  blanks := 0
  line := .ofBytes (List.replicate 100 97)
  nonempty := by decide
  oneLine := by decide

def CJson.valueint? : CJson → Option Int
  | .number n => some n
  | _ => none

/-- The last letter of the first line answers the second question, and the
location is the number that one letter is. -/
theorem longLine_spills : ¬ ∀ (json : CJson) (uuid date : CString) (rest : List Byte)
    (es : List FormEntry) (stdout : List String), HasFields json → es.length = 11 →
    KeepsLines json uuid date rest es ⟨inputOf rest es, stdout⟩ := by
  intro h
  have hstored := (h requestFormat .empty .empty [] (formBehind longEntry) []
    requestFormat_hasFields rfl).stored _ _ (List.mem_cons_of_mem _ List.mem_cons_self)
  have hwrong : ((updateJsonWithUserInput requestFormat .empty .empty
      ⟨inputOf [] (formBehind longEntry), []⟩).1.get ["general_info", "source", "location"]).bind
        CJson.valueint? = some 0 := by
    decide +kernel
  rw [hstored] at hwrong
  exact absurd hwrong (by decide +kernel)

end LogisticService
