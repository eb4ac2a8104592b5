import LogisticService.Server.Journal
import LogisticService.Verify.Framing
import LogisticService.Verify.OrderForm
import LogisticService.Verify.Replies
import LogisticService.Verify.Survival

/-!
# From the order form to the tables

An order is typed into the form, printed by cJSON, sent over either transport,
read by jsoncpp and handled by the server, among any other messages. What the
server does for it is what was typed (`typed_order_served`): its updates are
those of the typed transfer, and only when the typed values keep the limits; an
order that breaks a limit is told so. The text between cJSON and jsoncpp is
theirs; what is assumed of it is that jsoncpp finds each item where cJSON has
it (`Conveys`).
-/

namespace LogisticService

open Effects CLib Program

/-- The characters of a C string, one for each byte. -/
def textOf (s : CString) : String := String.ofList (s.bytes.map fun b => Char.ofNat b.toNat)

/-- What was typed, as text. -/
def FormEntry.text (e : FormEntry) : String := textOf e.answer

/-- What was typed, as a number. -/
def FormEntry.number (e : FormEntry) : Int := atoi e.text

/-- The lines of an order form. -/
structure OrderForm where
  sourceType : FormEntry
  sourceLocation : FormEntry
  destinationType : FormEntry
  destinationLocation : FormEntry
  actionType : FormEntry
  productId : FormEntry
  productName : FormEntry
  productQuantity : FormEntry
  message : FormEntry
  priority : FormEntry
  protocol : FormEntry

namespace OrderForm

/-- The lines in the order of their questions. -/
def entries (f : OrderForm) : List FormEntry :=
  [f.sourceType, f.sourceLocation, f.destinationType, f.destinationLocation, f.actionType,
    f.productId, f.productName, f.productQuantity, f.message, f.priority, f.protocol]

/-- The order that the form makes of `request_format.json`. -/
def order (f : OrderForm) (uuid date : CString) (rest : List Byte) (stdout : List String) : CJson :=
  (updateJsonWithUserInput requestFormat uuid date ⟨inputOf rest f.entries, stdout⟩).1

/-- The transfer that was typed. -/
def transfer (f : OrderForm) : Transfer where
  sourceType := f.sourceType.text
  sourceLocation := f.sourceLocation.number
  destinationType := f.destinationType.text
  destinationLocation := f.destinationLocation.number
  productName := f.productName.text
  quantity := f.productQuantity.number

/-- What the limit rules say of the typed values. -/
def verdict (f : OrderForm) : Except Exn (Option Rejection) :=
  checkFields f.destinationType.text f.actionType.text f.productName.text f.productQuantity.number

end OrderForm

/-- An item of the tree is what is read. -/
def CJson.isRead : CJson → Except Exn Value → Bool
  | .string s, .ok (.string t) => t == textOf s
  | .number n, .ok (.int i) => i == n
  | _, _ => false

/-- The text of an order tree, and what jsoncpp makes of it: each answer is
found where cJSON has it. -/
structure Conveys (json : JsonCpp) (order : CJson) (text : String) (root : Value) : Prop where
  brace : beginsWithBrace text = true
  nulFree : '\x00' ∉ text.toList
  parses : json.parse text = .ok (some root)
  items : ∀ field ∈ formFields,
    ((order.spelled field.path).all fun item => item.isRead (root.path field.path)) = true

/-- What the server reads of a typed order. -/
structure ReadsTyped (f : OrderForm) (root : Value) : Prop where
  transfer : Transfer.ofJson root = .ok f.transfer
  verdict : checkOrder root = f.verdict

/-! ## What was typed is what is read -/

theorem CJson.isRead_string {s : CString} {found : Except Exn Value}
    (h : (CJson.string s).isRead found = true) : found = .ok (.string (textOf s)) := by
  unfold isRead at h
  split at h
  · next heq =>
    cases heq
    rw [eq_of_beq h]
  · next heq => cases heq
  · cases h

theorem CJson.isRead_number {n : Int} {found : Except Exn Value}
    (h : (CJson.number n).isRead found = true) : found = .ok (.int n) := by
  unfold isRead at h
  split at h
  · next heq => cases heq
  · next heq =>
    cases heq
    rw [eq_of_beq h]
  · cases h

section

variable {form : OrderForm} {uuid date : CString} {rest : List Byte} {stdout : List String}

/-- The names of the format are spelled like the paths of the form. -/
theorem requestFormat_spelledOut :
    ∀ field ∈ formFields, CJson.spelledOut field.path requestFormat = true := by
  decide +kernel

theorem formFields_apart_or_same : ∀ f ∈ formFields, ∀ g ∈ formFields,
    f.path = g.path ∨ CJson.Apart f.path g.path := by
  decide +kernel

/-- Each line is found as it is spelled, when no line spills. -/
theorem order_spelled (hfit : ∀ e ∈ form.entries.dropLast, e.line.bytes.length ≤ BUFFER_LIMIT - 1)
    {field : FormField} {e : FormEntry} (hmem : (field, e) ∈ formFields.zip form.entries) :
    (form.order uuid date rest stdout).spelled field.path = some (field.item e.answer) := by
  have hunspilled : Unspilled rest formFields form.entries ⟨inputOf rest form.entries, stdout⟩ :=
    (unspilled_iff rfl (.inl rfl)).2 hfit
  have hfield := (List.of_mem_zip hmem).1
  obtain ⟨_, hid, hdate⟩ := formFields_apart_others field hfield
  have hspelled : CJson.spelledOut field.path (form.order uuid date rest stdout) = true := by
    show CJson.spelledOut field.path (CJson.replaceItemInObject (.string date) datePath
      (fillForm formFields (CJson.replaceItemInObject (.string uuid) idPath requestFormat)
        ⟨inputOf rest form.entries, stdout⟩).1) = true
    rw [fillForm_eq rfl hunspilled]
    refine CJson.spelledOut_replace_apart _ hdate (CJson.spelledOut_replaceAll (fun i hi => ?_)
      (CJson.spelledOut_replace_apart _ hid (requestFormat_spelledOut field hfield)))
    obtain ⟨p, hp, rfl⟩ := List.mem_map.1 hi
    exact formFields_apart_or_same p.1 (List.of_mem_zip hp).1 field hfield
  rw [CJson.spelled_of_spelledOut hspelled]
  unfold OrderForm.order
  exact stored_of_unspilled requestFormat_hasFields rfl hunspilled hmem

theorem FormEntry.number_isInt (e : FormEntry) : IsInt e.number := by
  unfold number atoi
  split
  · decide
  · exact toInt32_isInt _

section

variable {json : JsonCpp} {text : String} {root : Value} {prompt : String} {path : List String}
  {e : FormEntry}

theorem Conveys.isRead (hc : Conveys json (form.order uuid date rest stdout) text root)
    (hfit : ∀ e ∈ form.entries.dropLast, e.line.bytes.length ≤ BUFFER_LIMIT - 1)
    {field : FormField} (hmem : (field, e) ∈ formFields.zip form.entries) :
    (field.item e.answer).isRead (root.path field.path) = true := by
  have hitem := hc.items field (List.of_mem_zip hmem).1
  rw [order_spelled hfit hmem] at hitem
  exact hitem

theorem Conveys.reads_string (hc : Conveys json (form.order uuid date rest stdout) text root)
    (hfit : ∀ e ∈ form.entries.dropLast, e.line.bytes.length ≤ BUFFER_LIMIT - 1)
    (hmem : (⟨prompt, path, .string⟩, e) ∈ formFields.zip form.entries) :
    root.path path = .ok (.string e.text) :=
  CJson.isRead_string (hc.isRead hfit hmem)

theorem Conveys.reads_number (hc : Conveys json (form.order uuid date rest stdout) text root)
    (hfit : ∀ e ∈ form.entries.dropLast, e.line.bytes.length ≤ BUFFER_LIMIT - 1)
    (hmem : (⟨prompt, path, createNumber⟩, e) ∈ formFields.zip form.entries) :
    root.path path = .ok (.int e.number) :=
  CJson.isRead_number (hc.isRead hfit hmem)

end

theorem asInt_number (e : FormEntry) : (Value.int e.number).asInt = .ok e.number :=
  if_pos e.number_isInt

/-- A value that a path leads through to something is not null. -/
theorem Value.isNull_of_path {v w : Value} {keys : List String} (h : v.path keys = .ok w)
    (hw : w.isNull = false) : v.isNull = false := by
  have hnull : ∀ keys, Value.null.path keys = .ok .null := by
    intro keys
    induction keys with
    | nil => rfl
    | cons key keys ih => exact ih
  cases v with
  | null =>
    cases h.symm.trans (hnull keys)
    exact hw
  | _ => rfl

/-- The server reads what was typed, when no line spills. -/
theorem Conveys.readsTyped {json : JsonCpp} {text : String} {root : Value}
    (hc : Conveys json (form.order uuid date rest stdout) text root)
    (hfit : ∀ e ∈ form.entries.dropLast, e.line.bytes.length ≤ BUFFER_LIMIT - 1) :
    ReadsTyped form root := by
  have hsourceType :=
    hc.reads_string hfit (e := form.sourceType) (List.mem_of_getElem? (i := 0) rfl)
  have hsourceLocation :=
    hc.reads_number hfit (e := form.sourceLocation) (List.mem_of_getElem? (i := 1) rfl)
  have hdestinationType :=
    hc.reads_string hfit (e := form.destinationType) (List.mem_of_getElem? (i := 2) rfl)
  have hdestinationLocation :=
    hc.reads_number hfit (e := form.destinationLocation) (List.mem_of_getElem? (i := 3) rfl)
  have hactionType :=
    hc.reads_string hfit (e := form.actionType) (List.mem_of_getElem? (i := 4) rfl)
  have hname := hc.reads_string hfit (e := form.productName) (List.mem_of_getElem? (i := 6) rfl)
  have hquantity :=
    hc.reads_number hfit (e := form.productQuantity) (List.mem_of_getElem? (i := 7) rfl)
  refine ⟨?_, ?_⟩
  · unfold Transfer.ofJson
    rw [hsourceType, hsourceLocation, hdestinationType, hdestinationLocation, hname, hquantity]
    simp only [Value.asString, asInt_number, bind, Except.bind]
    rfl
  · obtain ⟨info, hinfo, hdestination'⟩ := Except.seq_ok hdestinationType
    obtain ⟨destination, hdestination, htype⟩ := Except.seq_ok hdestination'
    rw [Value.path_cons hinfo] at hactionType hname hquantity
    obtain ⟨action, haction, hrequest⟩ := Except.seq_ok hactionType
    rw [Value.path_cons haction] at hname hquantity
    obtain ⟨product, hproduct, hname⟩ := Except.seq_ok hname
    rw [Value.path_cons hproduct] at hquantity
    have hpresent := Value.isNull_of_path hdestination' rfl
    have hdestinationHere := Value.isNull_of_path htype rfl
    have hactionHere := Value.isNull_of_path hrequest rfl
    have hproductHere := Value.isNull_of_path hname rfl
    obtain ⟨_, htype, htype'⟩ := Except.seq_ok htype
    cases htype'
    obtain ⟨_, hrequest, hrequest'⟩ := Except.seq_ok hrequest
    cases hrequest'
    obtain ⟨_, hname, hname'⟩ := Except.seq_ok hname
    cases hname'
    obtain ⟨_, hquantity, hquantity'⟩ := Except.seq_ok hquantity
    cases hquantity'
    simp only [checkOrder, checkGeneralInfo, hinfo, hdestination, haction, hproduct, hpresent,
      hdestinationHere, hactionHere, hproductHere, htype, hrequest, hname, hquantity, bind,
      Except.bind, Value.asString, asInt_number]
    rfl

end

/-! ## What is sent is what is received -/

/-- On either transport the server's buffer holds the text that was printed. -/
theorem received_wireBytes (transport : Transport) {text : String}
    (hlength : text.toList.length ≤ BUFFER_SIZE_SERVER - 1) (hnul : '\x00' ∉ text.toList) :
    receivedText (wireBytes transport text) = text := by
  have hshort : text.toList.length ≤ BUFFER_SIZE_CLIENT - 1 :=
    hlength.trans (by decide)
  have hsent : bufferSend text = text := by
    unfold bufferSend
    rw [List.take_of_length_le hshort, String.ofList_toList]
  cases transport with
  | tcp =>
    show receivedText (bufferSend text) = text
    rw [hsent]
    exact receivedText_of_fits hlength hnul
  | udp =>
    have hall : ∀ c ∈ text.toList, decide (c ≠ '\x00') = true := fun c hc =>
      decide_eq_true fun h => hnul (h ▸ hc)
    show receivedText (wholeBuffer text) = text
    unfold receivedText wholeBuffer
    simp only [hsent, String.toList_ofList]
    rw [List.take_append, List.take_of_length_le hlength, List.takeWhile_append_of_pos hall,
      List.take_replicate]
    cases min (_ : Nat) (_ : Nat) with
    | zero => exact (congrArg String.ofList (List.append_nil _)).trans String.ofList_toList
    | succ n =>
      rw [List.replicate_succ, List.takeWhile_cons_of_neg (by simp), List.append_nil,
        String.ofList_toList]

/-- Every send of an exchange carries the bytes of its order. -/
theorem sent_payload {transport : Transport} {text payload : String} {t : List (Answered Client)}
    {q : Communicating} (hclient : Leads (clientCommunicate transport text) t q)
    {e : Answered Client} (he : e ∈ t) (hpayload : ClientOperation.payload? e.1 = some payload) :
    payload = wireBytes transport text := by
  have hkept := (clientCommunicate_meets transport text).kept hclient (fun _ _ => trivial) Kept.nil
  obtain ⟨before, after, hsplit⟩ := List.append_of_mem he
  exact (hkept before e after (by rw [List.nil_append, hsplit]) payload hpayload).1

/-! ## What was typed is what is done -/

/-- What the server has done for a message is what a form asks for. -/
structure Served (form : OrderForm) {env : Env} (s : Sys env) (job : Job env) : Prop where
  moves : ∀ e ∈ job.task.history, ∀ u, e.1.update? = some u → u.OfTransfer →
    form.verdict = .ok none ∧ (form.transfer.debit = some u ∨ form.transfer.credit = some u)
  success : SuccessSent job.origin job.task.history →
    form.verdict = .ok none ∧ form.transfer.Completed job.task.history
  /-- Once it is handled to its end, unless a send failed. -/
  rejected : ∀ f ∈ s.finished, f.job = job → ¬ Broken job.task.history →
    ∀ r : Rejection, form.verdict = .ok (some r) →
      job.origin.send (generateError env.json r.code r.message r.description .error) ∈
        sends job.task.history

section

variable {env : Env} {form : OrderForm} {root : Value} {buffer : String} {t : Transfer}

/-- The accepted transfer of a typed order is the typed one. -/
theorem ReadsTyped.accepted (hr : ReadsTyped form root)
    (hparses : env.json.parse buffer = .ok (some root)) (ht : AcceptedTransfer env buffer t) :
    form.verdict = .ok none ∧ t = form.transfer := by
  obtain ⟨root', hparse, hacc, hof⟩ := ht.order
  cases hparses.symm.trans hparse
  exact ⟨hr.verdict.symm.trans hacc.limits, Except.ok.inj (hof.symm.trans hr.transfer)⟩

theorem Transfer.Completed.append {h : List (Answered Server)} (hdone : t.Completed h)
    (h' : List (Answered Server)) : t.Completed (h ++ h') := by
  obtain ⟨⟨d, hd, e, he, hp⟩, hcredit⟩ := hdone
  refine ⟨⟨d, hd, e, List.mem_append_left _ he, hp⟩, fun k hk => ?_⟩
  obtain ⟨e', he', hp'⟩ := hcredit k hk
  exact ⟨e', List.mem_append_left _ he', hp'⟩

/-- A message that reads as the form is served as typed. -/
theorem ReadsTyped.served (hr : ReadsTyped form root) {tables : Tables} {es : List Event}
    {s : Sys env} (hrun : (Sys.start tables).run es = some s) {job : Job env} (hjob : job ∈ s.jobs)
    (hbrace : beginsWithBrace job.buffer = true)
    (hparses : env.json.parse job.buffer = .ok (some root)) : Served form s job := by
  have hkept := Sys.run_kept hrun hjob
  refine ⟨fun e he u hu hof => ?_, fun hsuccess => ?_, fun f hf hsame hunbroken r hverdict => ?_⟩
  · obtain ⟨before, after, hsplit⟩ := List.append_of_mem he
    obtain ⟨t, d, ht, hd, hside⟩ := (hkept before e after hsplit).transfer_inv hu hof
    obtain ⟨hverdict, rfl⟩ := hr.accepted hparses ht
    refine ⟨hverdict, hside.imp (fun h => ?_) fun h => h.1⟩
    rw [h.1]
    exact hd
  · obtain ⟨e, he, hop⟩ := hsuccess
    obtain ⟨before, after, hsplit⟩ := List.append_of_mem he
    have htext : Operation.text? e.1 = some "Successful order!" := by
      rw [hop]
      exact Origin.send_text _ _
    obtain ⟨t, ht, hdone⟩ := (hkept before e after hsplit).success_inv htext hbrace
    obtain ⟨hverdict, rfl⟩ := hr.accepted hparses ht
    refine ⟨hverdict, ?_⟩
    rw [hsplit]
    exact hdone.append _
  · obtain rfl := hsame
    have htold := (iteration_speaks env f.job.origin f.job.buffer f.job.loop).result
      (Task.leads_pure f.done) fun _ _ => trivial
    rcases htold hbrace root hparses with hbroken | ⟨replies, hsaid, hlimits⟩
    · exact absurd hbroken hunbroken
    · have herror : replies.limits =
          some (generateError env.json r.code r.message r.description .error) := by
        rw [hlimits, limitsError, hr.verdict, hverdict]
      rw [hsaid.sends]
      refine List.mem_append_left _ (List.mem_map_of_mem ?_)
      simp [herror]

end

/-- **What is typed is what is done.** An order is typed into the form with no
line too long for its question, and its text fits the server's buffer. In every
run of the server, whatever else it handles meanwhile, whatever was sent of the
order and received is served as typed. -/
theorem typed_order_served {env : Env} {form : OrderForm} {uuid date : CString}
    {rest : List Byte} {stdout : List String} {text : String} {root : Value}
    (hfit : ∀ e ∈ form.entries.dropLast, e.line.bytes.length ≤ 99)
    (hconveys : Conveys env.json (form.order uuid date rest stdout) text root)
    (hlength : text.toList.length ≤ 2047)
    {transport : Transport} {t : List (Answered Client)} {q : Communicating}
    (hclient : Leads (clientCommunicate transport text) t q) {e : Answered Client} (he : e ∈ t)
    {payload : String} (hpayload : ClientOperation.payload? e.1 = some payload)
    {tables : Tables} {es : List Event} {s : Sys env}
    (hrun : (Sys.start tables).run es = some s) {job : Job env} (hjob : job ∈ s.jobs)
    (hreceived : job.buffer = receivedText payload) : Served form s job := by
  have hbuffer : job.buffer = text := by
    rw [hreceived, sent_payload hclient he hpayload]
    exact received_wireBytes transport hlength hconveys.nulFree
  have hbrace : beginsWithBrace job.buffer = true := by
    rw [hbuffer]
    exact hconveys.brace
  have hparses : env.json.parse job.buffer = .ok (some root) := by
    rw [hbuffer]
    exact hconveys.parses
  exact (hconveys.readsTyped hfit).served hrun hjob hbrace hparses

/-! ## An order for water -/

/-- Twenty-five units for an external client. -/
def waterForm : OrderForm where
  sourceType := .of 0 "warehouse" (by decide)
  sourceLocation := .of 0 "1" (by decide)
  destinationType := .of 1 "external" (by decide)
  destinationLocation := .of 0 "1" (by decide)
  actionType := .of 0 "request" (by decide)
  productId := .of 0 "2" (by decide)
  productName := .of 2 "Water" (by decide)
  productQuantity := .of 0 "25" (by decide)
  message := .of 0 "Thirsty" (by decide)
  priority := .of 0 "LOW" (by decide)
  protocol := .of 0 "tcp" (by decide)

/-- The order that the form makes. -/
def waterFormOrder : CJson :=
  waterForm.order (.ofBytes (bytesOf "0b7d6c1e-5a44-4f2b-9c1d-3e8f2a6b7c90"))
    (.ofBytes (bytesOf "01-05-2025")) [] []

/-- The lines of its text, as `cJSON_Print` lays it out. -/
def waterFormLines : List String :=
  ["\x7b",
    "\t\"general_info\":\t\x7b",
    "\t\t\"id\":\t\"0b7d6c1e-5a44-4f2b-9c1d-3e8f2a6b7c90\",",
    "\t\t\"source\":\t\x7b",
    "\t\t\t\"type\":\t\"warehouse\",",
    "\t\t\t\"location\":\t1",
    "\t\t\x7d,",
    "\t\t\"destination\":\t\x7b",
    "\t\t\t\"type\":\t\"external\",",
    "\t\t\t\"location\":\t1",
    "\t\t\x7d,",
    "\t\t\"action\":\t\x7b",
    "\t\t\t\"type\":\t\"request\",",
    "\t\t\t\"product\":\t\x7b",
    "\t\t\t\t\"id\":\t\"2\",",
    "\t\t\t\t\"name\":\t\"Water\",",
    "\t\t\t\t\"quantity\":\t25",
    "\t\t\t\x7d",
    "\t\t\x7d,",
    "\t\t\"metadata\":\t\x7b",
    "\t\t\t\"date\":\t\"01-05-2025\",",
    "\t\t\t\"message\":\t\"Thirsty\",",
    "\t\t\t\"priority\":\t\"LOW\",",
    "\t\t\t\"protocol\":\t\"tcp\"",
    "\t\t\x7d",
    "\t\x7d",
    "\x7d"]

def waterFormText : String := "\n".intercalate waterFormLines

/-- The same order, as jsoncpp holds it. -/
def waterFormRoot : Value :=
  .object [("general_info", .object
    [("action", .object
        [("product", .object
          [("id", .string "2"), ("name", .string "Water"), ("quantity", .int 25)]),
        ("type", .string "request")]),
      ("destination", .object [("location", .int 1), ("type", .string "external")]),
      ("id", .string "0b7d6c1e-5a44-4f2b-9c1d-3e8f2a6b7c90"),
      ("metadata", .object
        [("date", .string "01-05-2025"), ("message", .string "Thirsty"),
          ("priority", .string "LOW"), ("protocol", .string "tcp")]),
      ("source", .object [("location", .int 1), ("type", .string "warehouse")])])]

def waterFormEnv : Env := .reading [(waterFormText, waterFormRoot)]

theorem waterFormText_toList : waterFormText.toList =
    ['\n'].intercalate (waterFormLines.map String.toList) :=
  String.toList_intercalate

theorem waterForm_brace : beginsWithBrace waterFormText = true := by
  unfold beginsWithBrace
  rw [waterFormText_toList]
  decide +kernel

theorem waterForm_parses :
    waterFormEnv.json.parse waterFormText = .ok (some waterFormRoot) := by
  simp [waterFormEnv, Env.reading, JsonCpp.ofReader, List.lookup_cons]

theorem waterForm_conveyed :
    Conveys waterFormEnv.json waterFormOrder waterFormText waterFormRoot where
  brace := waterForm_brace
  nulFree := by
    rw [waterFormText_toList]
    decide +kernel
  parses := waterForm_parses
  items := by decide +kernel

theorem waterFormText_fits : waterFormText.toList.length ≤ 2047 := by
  rw [waterFormText_toList]
  decide +kernel

/-- The registration of the client, and the loop variables it serves under. -/
def waterFormRegistered : Int × Registry :=
  Registry.start.registerClient 0 7 "TCP" ⟨⟨127, 0, 0, 1⟩, 5000⟩ 5

def waterFormLoop : Loop := { Loop.start with clientId := waterFormRegistered.1 }

/-- The client connects, gives its PID and sends its order. -/
def waterFormEvents (payload : String) : List Event :=
  [.accept 5 ⟨⟨127, 0, 0, 1⟩, 5000⟩, .read 0 "7", .read 0 payload]

theorem waterForm_taken {env : Env} (payload : String) : ∃ s : Sys env,
    s.crashed = false ∧ s.shared = ⟨waterTables 500, waterFormRegistered.2, .start, 0⟩ ∧
      s.activity? (.tcp 0) =
        some (.busy (.begin env (.tcp 5) (receivedText payload) waterFormLoop)) ∧
      s.active = [.begin env (.tcp 5) (receivedText payload) waterFormLoop] ∧
      ∀ es s', s.run es = some s' →
        (Sys.start (waterTables 500)).run (waterFormEvents payload ++ es) = some s' := by
  refine ⟨_, ?_, ?_, ?_, ?_, fun es s' hes => runSteps_cons.2 ⟨_, rfl, runSteps_cons.2 ⟨_, rfl,
    runSteps_cons.2 ⟨_, rfl, hes⟩⟩⟩⟩ <;> rfl

/-- Alone, the handler takes the order's units from the warehouse. -/
theorem waterForm_handled :
    let out := (iteration waterFormEnv (.tcp 5) waterFormText waterFormLoop).run
      (sunny waterFormEnv) ⟨waterTables 500, waterFormRegistered.2, .start, 0⟩
    (out.1.toOption.isSome, out.2.tables.warehouses) =
      (true, [⟨some 1, some "Water", some 475⟩]) := by
  unfold iteration handleTcpClient handleMessage orderBranch handleOrder processMessage
  simp only [waterForm_brace, waterForm_parses, if_true]
  decide +kernel

/-- Its handler goes on alone until the order is handled. -/
theorem typed_order_served_waterForm : ∃ (n : Nat) (s : Sys waterFormEnv) (job : Job waterFormEnv),
    (Sys.start (waterTables 500)).run (waterFormEvents (wireBytes .tcp waterFormText) ++
        List.replicate n (.proceed (.tcp 0) true)) = some s ∧
      job ∈ s.finished.map Finished.job ∧ job.buffer = waterFormText ∧
      s.shared.tables.warehouses = [⟨some 1, some "Water", some 475⟩] ∧
      Served waterForm s job := by
  have hreceived : receivedText (wireBytes .tcp waterFormText) = waterFormText :=
    received_wireBytes .tcp waterFormText_fits waterForm_conveyed.nulFree
  obtain ⟨s₀, halive, hshared, hact, hactive, htaken⟩ :=
    @waterForm_taken waterFormEnv (wireBytes .tcp waterFormText)
  rw [hreceived] at hact hactive
  have hhandled := waterForm_handled
  rcases hout : (iteration waterFormEnv (.tcp 5) waterFormText waterFormLoop).run
    (sunny waterFormEnv) ⟨waterTables 500, waterFormRegistered.2, .start, 0⟩ with ⟨r, shared'⟩
  rw [hout] at hhandled
  obtain ⟨hok, hrows⟩ := Prod.mk.inj hhandled
  obtain ⟨n, s, hn, hsame, _, hend⟩ := Sys.run_alone halive hact hactive rfl (hshared ▸ hout)
  cases r with
  | error ex => cases hok
  | ok result =>
    obtain ⟨f, hf, hbuffer⟩ := hend result rfl
    have hjob : f.job ∈ s.finished.map Finished.job := List.mem_map_of_mem hf
    obtain ⟨q, hsent⟩ : ∃ q, Leads (clientCommunicate .tcp waterFormText)
        [⟨.send (wireBytes .tcp waterFormText), true⟩] q :=
      ⟨_, @Leads.call Client Empty Int (.send (wireBytes .tcp waterFormText)) _ [] _ true
        (.refl _)⟩
    exact ⟨n, s, f.job, htaken _ _ hn, hjob, hbuffer, hsame ▸ hrows,
      typed_order_served (by decide +kernel) waterForm_conveyed waterFormText_fits hsent
        List.mem_cons_self rfl (htaken _ _ hn) (List.mem_append_left _ hjob)
        (hbuffer.trans hreceived.symm)⟩

end LogisticService
