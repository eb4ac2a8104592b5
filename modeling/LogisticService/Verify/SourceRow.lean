import LogisticService.Order.Sample
import LogisticService.Verify.Transfer
import LogisticService.Verify.Vetting

/-!
# The row that is checked and the row that is debited

The stock check reads the source location as a text and converts that, the
transfer reads it as an integer. When the check has passed, the row it compared
is the one the transfer debits just when the two readings agree, the
destination can be read, the debit reaches the database and no second row of
that location and product holds as much (`AgreesOnSource`). A location that is
a string passes the check and ends the transfer in an exception.
-/

namespace LogisticService

open Effects

/-- The quantities an INT column can hold. -/
def Tables.Typed (t : Tables) : Prop :=
  ∀ k, ∀ r ∈ t.rows k, ∀ a, r.availableQuantity = some a → IsInt a

/-- The row whose stock `checkProductStock` compares. -/
structure StockRequest.Compared (c : Collation) (r : StockRequest) (t : Tables) (k : Table)
    (i : Nat) (row : Row) : Prop
    extends FirstNamed c r.sourceId r.productName (t.rows k) i row where
  table : (r.sourceType = "hub" ∧ k = .hubs) ∨ (r.sourceType = "warehouse" ∧ k = .warehouses)

/-- Run next, `realTimeUpdate` returns, and the first of its updates lowers the
row that was compared by the quantity of the order and no other row. -/
structure DebitsCompared (env : Env) (root : Value) (s : Alone) : Prop where
  returns : ∃ v s', runAlone env (realTimeUpdate root) s = (.ok v, s')
  debits : ∃ r k i row, StockRequest.ofJson root = .ok (.ok r) ∧
    r.Compared env.collation s.1.tables k i row ∧
    (Program.afterFirst (answerAlone env) (realTimeUpdate root) s).1.tables =
      s.1.tables.setRows k ((s.1.tables.rows k).set i (row.add (-r.requestedQuantity)))

/-- What makes the transfer debit the row that was compared. -/
structure AgreesOnSource (env : Env) (root : Value) (s : Alone) : Prop where
  /-- Read as an integer, the source location is the number that its text holds. -/
  source : ∃ text location, root.stringAt sourceLocationPath = .ok text ∧
    stoi text = .ok location ∧ root.intAt sourceLocationPath = .ok location
  /-- The destination can be read. -/
  destination : ∃ type location, root.stringAt destinationTypePath = .ok type ∧
    root.intAt destinationLocationPath = .ok location
  reaches : s.2.headD true = true
  /-- No other row of the location and the product holds the quantity. -/
  alone : ∀ r k i row, StockRequest.ofJson root = .ok (.ok r) →
    r.Compared env.collation s.1.tables k i row → ∀ j r', (s.1.tables.rows k)[j]? = some r' →
      r'.accepts env.collation r.sourceId r.productName (-r.requestedQuantity) = true → j = i

/-! ## What the check compared -/

namespace StockRequest

variable {c : Collation} {r : StockRequest} {t : Tables} {k : Table} {i : Nat} {row : Row}

theorem ofAction_positive {sourceType : String} {sourceId : Int} {generalInfo : Value}
    (h : ofAction sourceType sourceId generalInfo = .ok (.ok r)) : 0 < r.requestedQuantity := by
  obtain ⟨action, _, h⟩ := Except.seq_ok h
  obtain ⟨hasProduct, _, h⟩ := Except.seq_ok h
  split at h
  · cases h
  obtain ⟨product, _, h⟩ := Except.seq_ok h
  obtain ⟨_, _, h⟩ := Except.seq_ok h
  obtain ⟨productName, _, h⟩ := Except.seq_ok h
  obtain ⟨_, _, h⟩ := Except.seq_ok h
  obtain ⟨quantity, _, h⟩ := Except.seq_ok h
  split at h
  · cases h
  · next hvalues =>
    cases h
    simp only [Bool.or_eq_true, decide_eq_true_eq, not_or] at hvalues
    exact Int.not_le.1 hvalues.2

theorem ofJson_positive {root : Value} (h : ofJson root = .ok (.ok r)) :
    0 < r.requestedQuantity := by
  obtain ⟨generalInfo, _, h⟩ := Except.seq_ok h
  split at h
  · cases h
  obtain ⟨source, _, h⟩ := Except.seq_ok h
  obtain ⟨_, _, h⟩ := Except.seq_ok h
  obtain ⟨sourceType, _, h⟩ := Except.seq_ok h
  obtain ⟨_, _, h⟩ := Except.seq_ok h
  obtain ⟨text, _, h⟩ := Except.seq_ok h
  split at h
  · cases h
  split at h
  · cases h
  · exact ofAction_positive h

theorem Compared.unique {k' : Table} {i' : Nat} {row' : Row} (h : r.Compared c t k i row)
    (h' : r.Compared c t k' i' row') : k = k' ∧ i = i' ∧ row = row' := by
  obtain rfl : k = k' := by
    rcases h.table with ⟨htype, rfl⟩ | ⟨htype, rfl⟩ <;>
      rcases h'.table with ⟨htype', rfl⟩ | ⟨htype', rfl⟩
    · rfl
    · exact absurd (htype.symm.trans htype') (by decide)
    · exact absurd (htype.symm.trans htype') (by decide)
    · rfl
  exact ⟨rfl, h.toFirstNamed.unique h'.toFirstNamed⟩

end StockRequest

/-- A check that passed has read the stock of the source, found it large
enough and changed nothing. -/
theorem checkProductStock_compared {env : Env} {root : Value} {error message : String}
    {s s₁ : Alone}
    (h : runAlone env (checkProductStock env.json root error) s = (.ok (true, message), s₁)) :
    s₁.1 = s.1 ∧ ∃ r k i row a, StockRequest.ofJson root = .ok (.ok r) ∧
      r.Compared env.collation s.1.tables k i row ∧ row.availableQuantity = some a ∧
      r.requestedQuantity ≤ a := by
  obtain ⟨verdict, s', hverdict, h⟩ := Program.run_bind_ok _ h
  cases verdict with
  | some rejection => cases h
  | none =>
  cases h
  obtain ⟨request, s', hrequest, hverdict⟩ := Program.run_bind_ok _ hverdict
  cases hr : StockRequest.ofJson root with
  | error e =>
    rw [hr] at hrequest
    cases hrequest
  | ok request' =>
  rw [hr] at hrequest
  cases hrequest
  cases request with
  | error rejection => cases hverdict
  | ok r =>
  have hpositive := StockRequest.ofJson_positive hr
  have hcompared : ∀ k, (r.sourceType = "hub" ∧ k = .hubs) ∨
      (r.sourceType = "warehouse" ∧ k = .warehouses) →
      r.judge (readStock (if s.2.headD true then
        some (selectRows env.collation r.sourceId r.productName (s.1.tables.rows k)) else none)) =
          none →
      ∃ r' k i row a, (.ok (.ok r) : Except Exn (Except Rejection StockRequest)) = .ok (.ok r') ∧
        r'.Compared env.collation s.1.tables k i row ∧ row.availableQuantity = some a ∧
        r'.requestedQuantity ≤ a := by
    intro k htable hjudge
    have hle := judge_none hjudge
    have hread : (-1 : Int) < readStock (if s.2.headD true then
        some (selectRows env.collation r.sourceId r.productName (s.1.tables.rows k)) else none) :=
      Int.lt_of_lt_of_le (by omega) hle
    obtain ⟨-, i, row, hrow, hq⟩ := FirstNamed.of_answered (Int.ne_of_gt hread)
    exact ⟨r, k, i, row, _, rfl, ⟨hrow, htable⟩, hq, hle⟩
  have hcheck : runAlone env r.check s = (.ok none, s₁) := hverdict
  unfold StockRequest.check at hcheck
  split at hcheck
  · next hhub =>
    obtain ⟨hjudge, rfl⟩ := Prod.mk.inj hcheck
    exact ⟨rfl, hcompared .hubs (.inl ⟨hhub, rfl⟩) (Except.ok.inj hjudge)⟩
  · split at hcheck
    · next hwarehouse =>
      obtain ⟨hjudge, rfl⟩ := Prod.mk.inj hcheck
      exact ⟨rfl, hcompared .warehouses (.inr ⟨hwarehouse, rfl⟩) (Except.ok.inj hjudge)⟩
    · cases hcheck

/-! ## What the transfer debits -/

section

variable {env : Env} {root : Value} {r : StockRequest} {t : Transfer} {k : Table} {i : Nat}
  {row : Row}

theorem Row.add_ne {a n : Int} (hq : row.availableQuantity = some a) (hn : n ≠ 0) :
    row.add n ≠ row := by
  intro heq
  have hquantity := congrArg Row.availableQuantity heq
  simp only [Row.add, hq, Option.map_some, Option.some.injEq] at hquantity
  omega

/-- A transfer whose fields can all be read. -/
theorem Transfer.ofJson_of_fields {sourceType destinationType productName : String}
    {sourceLocation destinationLocation quantity : Int}
    (h₁ : root.stringAt sourceTypePath = .ok sourceType)
    (h₂ : root.intAt sourceLocationPath = .ok sourceLocation)
    (h₃ : root.stringAt destinationTypePath = .ok destinationType)
    (h₄ : root.intAt destinationLocationPath = .ok destinationLocation)
    (h₅ : root.stringAt productNamePath = .ok productName)
    (h₆ : root.intAt productQuantityPath = .ok quantity) :
    ∃ t, ofJson root = .ok t ∧ t.sourceLocation = sourceLocation := by
  obtain ⟨v₁, hv₁, hs₁⟩ := Except.seq_ok h₁
  obtain ⟨v₂, hv₂, hs₂⟩ := Except.seq_ok h₂
  obtain ⟨v₃, hv₃, hs₃⟩ := Except.seq_ok h₃
  obtain ⟨v₄, hv₄, hs₄⟩ := Except.seq_ok h₄
  obtain ⟨v₅, hv₅, hs₅⟩ := Except.seq_ok h₅
  obtain ⟨v₆, hv₆, hs₆⟩ := Except.seq_ok h₆
  refine ⟨⟨sourceType, sourceLocation, destinationType, destinationLocation, productName,
    quantity⟩, ?_, rfl⟩
  refine Except.seq_ok_iff.2 ⟨v₁, hv₁, Except.seq_ok_iff.2 ⟨_, hs₁, ?_⟩⟩
  refine Except.seq_ok_iff.2 ⟨v₂, hv₂, Except.seq_ok_iff.2 ⟨_, hs₂, ?_⟩⟩
  refine Except.seq_ok_iff.2 ⟨v₃, hv₃, Except.seq_ok_iff.2 ⟨_, hs₃, ?_⟩⟩
  refine Except.seq_ok_iff.2 ⟨v₄, hv₄, Except.seq_ok_iff.2 ⟨_, hs₄, ?_⟩⟩
  refine Except.seq_ok_iff.2 ⟨v₅, hv₅, Except.seq_ok_iff.2 ⟨_, hs₅, ?_⟩⟩
  exact Except.seq_ok_iff.2 ⟨v₆, hv₆, Except.seq_ok_iff.2 ⟨_, hs₆, rfl⟩⟩

/-- The debit is an update of the table of the row that was compared, by the
same name and the same quantity. -/
theorem Transfer.debit_of_compared {c : Collation} {tables : Tables}
    (ht : Transfer.ofJson root = .ok t) (hr : StockRequest.ofJson root = .ok (.ok r))
    (hrow : r.Compared c tables k i row) :
    t.debit = some ⟨k, t.sourceLocation, r.productName, -r.requestedQuantity⟩ := by
  obtain ⟨htype, _, hname, hquantity⟩ := StockRequest.ofJson_ok hr
  obtain ⟨htype', _, _, hname', hquantity'⟩ := Transfer.ofJson_ok ht
  rw [debit, ← Except.ok.inj (htype.symm.trans htype'), ← Except.ok.inj (hname.symm.trans hname'),
    ← Except.ok.inj (hquantity.symm.trans hquantity')]
  rcases hrow.table with ⟨hsource, rfl⟩ | ⟨hsource, rfl⟩
  · rw [hsource]
    rfl
  · rw [hsource]
    rfl

/-- The first operation of a transfer is its debit: it takes effect, or it
leaves the tables as they were. -/
theorem Transfer.afterFirst_perform (env : Env) {d : Update} (hd : t.debit = some d) (s : Alone) :
    (s.2.headD true = true ∧ d.Takes env.collation s.1.tables ∧
        (Program.afterFirst (answerAlone env) t.perform s).1.tables =
          d.apply env.collation s.1.tables) ∨
      (¬ (s.2.headD true = true ∧ d.Takes env.collation s.1.tables) ∧
        (Program.afterFirst (answerAlone env) t.perform s).1.tables = s.1.tables) := by
  obtain ⟨o, ho, hcall⟩ := d.call_eq
  have hfirst : (Program.afterFirst (answerAlone env) t.perform s).1 =
      (answer env (s.2.headD true) s.1 o).2 := by
    rw [perform_of_debit hd, hcall]
    rfl
  rw [hfirst]
  rcases answer_update env (s.2.headD true) s.1 o with
    ⟨d', _, hd', hok, htakes, htables⟩ | ⟨_, htables, hnot⟩
  · obtain rfl : d = d' := Option.some.inj (ho.symm.trans hd')
    exact .inl ⟨hok, htakes, htables⟩
  · exact .inr ⟨hnot d ho, htables⟩

/-- The compared row as an update sees it. -/
theorem StockRequest.Compared.apply_iff {c : Collation} {tables : Tables} {d : Update} {a : Int}
    (hrow : r.Compared c tables k i row) (hq : row.availableQuantity = some a)
    (hle : r.requestedQuantity ≤ a) (hpositive : 0 < r.requestedQuantity) {location : Int}
    (hd : d = ⟨k, location, r.productName, -r.requestedQuantity⟩) :
    d.apply c tables =
        tables.setRows k ((tables.rows k).set i (row.add (-r.requestedQuantity))) ↔
      location = r.sourceId ∧ ∀ j r', (tables.rows k)[j]? = some r' →
        r'.accepts c r.sourceId r.productName (-r.requestedQuantity) = true → j = i := by
  have hset : d.apply c tables =
        tables.setRows k ((tables.rows k).set i (row.add (-r.requestedQuantity))) ↔
      (tables.rows k).map (d.onRow c) =
        (tables.rows k).set i (row.add (-r.requestedQuantity)) := by
    subst hd
    constructor
    · intro heq
      have hrows := congrArg (Tables.rows · k) heq
      simpa only [Update.apply, Tables.rows_setRows, if_pos] using hrows
    · intro heq
      rw [Update.apply, heq]
  have hne : ∀ {r' : Row} {b : Int}, r'.availableQuantity = some b →
      r'.add (-r.requestedQuantity) ≠ r' := fun hb => Row.add_ne hb (by omega)
  rw [hset]
  constructor
  · intro heq
    have hat : d.onRow c row = row.add (-r.requestedQuantity) := by
      have hget := congrArg (·[i]?) heq
      simp only [List.getElem?_map, hrow.at_index, Option.map_some,
        List.getElem?_set_self (List.getElem?_eq_some_iff.1 hrow.at_index).1,
        Option.some.injEq] at hget
      exact hget
    have haccepts : d.Accepts c row := by
      by_contra hno
      rw [Update.onRow_of_not_accepts hno] at hat
      exact hne hq hat.symm
    have hlocation : location = r.sourceId := by
      have hnames : row.names c location r.productName = true := by
        have hnames := haccepts.names
        rwa [hd] at hnames
      exact Option.some.inj
        ((Row.names_iff.1 hnames).1.symm.trans (Row.names_iff.1 hrow.names).1)
    refine ⟨hlocation, fun j r' hj ha => ?_⟩
    by_contra hji
    have hget := congrArg (·[j]?) heq
    simp only [List.getElem?_map, hj, Option.map_some, List.getElem?_set_ne (Ne.symm hji),
      Option.some.injEq] at hget
    have ha' : d.Accepts c r' := by
      rw [hd, hlocation]
      exact ha
    obtain ⟨_, b, hb, _⟩ := Row.accepts_iff.1 ha
    rw [Update.onRow_of_accepts ha', hd] at hget
    exact hne hb hget
  · rintro ⟨rfl, halone⟩
    have haccepts : d.Accepts c row := by
      rw [hd]
      exact Row.accepts_iff.2 ⟨hrow.names, a, hq, by simp only; omega⟩
    rw [Update.map_onRow_eq_set hrow.at_index haccepts fun j r' hj ha' =>
      halone j r' hj (by rw [hd] at ha'; exact ha'), hd]

end

/-- **The transfer debits the row that was compared just when the two agree on
the source**, for every order that the stock check has passed. -/
theorem realTimeUpdate_debits_compared_iff {env : Env} {root : Value} {error message : String}
    {s s₁ : Alone} (htyped : s.1.tables.Typed)
    (hcheck : runAlone env (checkProductStock env.json root error) s = (.ok (true, message), s₁)) :
    DebitsCompared env root s₁ ↔ AgreesOnSource env root s₁ := by
  obtain ⟨hsame, r, k, i, row, a, hr, hrow, hq, hle⟩ := checkProductStock_compared hcheck
  rw [← hsame] at hrow htyped
  have hpositive := StockRequest.ofJson_positive hr
  obtain ⟨htype, ⟨text, htext, hid⟩, hname, hquantity⟩ := StockRequest.ofJson_ok hr
  constructor
  · rintro ⟨⟨v, s', hrun⟩, r', k', i', row', hr', hrow', hdebits⟩
    cases hr.symm.trans hr'
    obtain ⟨rfl, rfl, rfl⟩ := hrow.unique hrow'
    cases ht : Transfer.ofJson root with
    | error e =>
      rw [realTimeUpdate_of_error ht] at hrun
      cases hrun
    | ok t =>
    rw [realTimeUpdate_of_transfer ht] at hdebits
    have hd := Transfer.debit_of_compared ht hr hrow
    obtain ⟨_, hlocation, hdestination, _, _⟩ := Transfer.ofJson_ok ht
    rcases Transfer.afterFirst_perform env hd s₁ with ⟨hok, _, htables⟩ | ⟨_, htables⟩
    · obtain ⟨heq, halone⟩ :=
        (hrow.apply_iff hq hle hpositive rfl).1 (htables.symm.trans hdebits)
      refine ⟨⟨text, r.sourceId, htext, hid, heq ▸ hlocation⟩,
        ⟨_, _, hdestination, Transfer.ofJson_destination ht⟩, hok, ?_⟩
      intro r'' k'' i'' row'' hr'' hrow''
      cases hr.symm.trans hr''
      obtain ⟨rfl, rfl, rfl⟩ := hrow.unique hrow''
      exact halone
    · have hrows := congrArg (Tables.rows · k) (htables.symm.trans hdebits)
      simp only [Tables.rows_setRows, if_pos] at hrows
      have hget := congrArg (·[i]?) hrows
      simp only [hrow.at_index, Option.some.injEq,
        List.getElem?_set_self (List.getElem?_eq_some_iff.1 hrow.at_index).1] at hget
      exact absurd hget.symm (Row.add_ne hq (by omega))
  · rintro ⟨⟨text', location, htext', hid', hlocation⟩, ⟨type, location', hdest, hdest'⟩, hok,
      halone⟩
    cases htext.symm.trans htext'
    cases hid.symm.trans hid'
    obtain ⟨t, ht, hsource⟩ :=
      Transfer.ofJson_of_fields htype hlocation hdest hdest' hname hquantity
    have hd := Transfer.debit_of_compared ht hr hrow
    have hset := (hrow.apply_iff (d := ⟨k, t.sourceLocation, _, _⟩) hq hle hpositive rfl).2
      ⟨hsource, halone r k i row hr hrow⟩
    refine ⟨?_, r, k, i, row, hr, hrow, ?_⟩
    · rw [realTimeUpdate_of_transfer ht]
      obtain ⟨v, s', hrun, _⟩ := t.perform_alone env s₁
      exact ⟨v, s', hrun⟩
    · rw [realTimeUpdate_of_transfer ht]
      rcases Transfer.afterFirst_perform env hd s₁ with ⟨_, _, htables⟩ | ⟨hnot, _⟩
      · exact htables.trans hset
      · refine absurd ⟨hok, ?_, ⟨row, List.mem_of_getElem? hrow.at_index, ?_⟩, ?_⟩ hnot
        · show -r.requestedQuantity ≠ 0
          omega
        · exact Row.accepts_iff.2 ⟨hsource ▸ hrow.names, a, hq, by simp only; omega⟩
        · intro r' hr' ha'
          obtain ⟨_, b, hb, hguard⟩ := Row.accepts_iff.1 ha'
          have hfits := htyped k r' hr' b hb
          unfold Row.fits
          rw [hb]
          exact decide_eq_true ⟨Int.le_trans (by decide) hguard,
            Int.le_trans (by simp only; omega) hfits.2⟩

theorem waterTables_typed {quantity : Int} (h : IsInt quantity) : (waterTables quantity).Typed := by
  intro k r hr a hq
  cases k with
  | hubs =>
    obtain rfl := List.mem_singleton.1 hr
    cases hq
    decide
  | warehouses =>
    obtain rfl := List.mem_singleton.1 hr
    cases hq
    exact h

/-- The order for an external client has an integer location, and its transfer
debits the one row that was compared. -/
theorem externalOrder_debits :
    DebitsCompared externalEnv externalOrder (.start (waterTables 500), []) := by
  have hcheck : (runAlone externalEnv (checkProductStock externalEnv.json externalOrder "")
      (.start (waterTables 500), [])).1 = .ok (true, "") := by decide +kernel
  have hlength : ∀ {k : Table} {j : Nat} {r : Row},
      ((waterTables 500).rows k)[j]? = some r → j = 0 := by
    intro k j r hj
    have hlt := (List.getElem?_eq_some_iff.1 hj).1
    cases k with
    | hubs => exact Nat.lt_one_iff.1 hlt
    | warehouses => exact Nat.lt_one_iff.1 hlt
  exact (realTimeUpdate_debits_compared_iff (waterTables_typed (by decide))
    (s := (.start (waterTables 500), [])) (Prod.ext hcheck rfl)).2
      ⟨⟨"1", 1, rfl, by decide, rfl⟩, ⟨"external", 0, rfl, rfl⟩, rfl,
        fun r k i row _ hrow j r' hj _ => (hlength hj).trans (hlength hrow.at_index).symm⟩

/-- The same order with its source location as a string. -/
def textLocationOrder : Value :=
  .object [("general_info", .object
    [("action", .object
        [("product", .object
          [("id", .int 2), ("name", .string "Water"), ("quantity", .int 25)]),
        ("type", .string "req")]),
      ("destination", .object [("type", .string "external")]),
      ("source", .object [("location", .string "1"), ("type", .string "warehouse")])])]

/-- The order passes the check, and its transfer ends in an exception. -/
theorem textLocation_not_debited : ¬ ∀ (env : Env) (root : Value) (error message : String)
    (s s₁ : Alone), s.1.tables.Typed → PlainSource root →
    runAlone env (checkProductStock env.json root error) s = (.ok (true, message), s₁) →
    (∀ ok ∈ s₁.2, ok = true) → DebitsCompared env root s₁ := by
  intro h
  have hcheck : (runAlone (.reading []) (checkProductStock (Env.reading []).json textLocationOrder
      "") (.start (waterTables 500), [])).1 = .ok (true, "") := by decide +kernel
  obtain ⟨⟨v, s', hrun⟩, _⟩ := h (.reading []) textLocationOrder "" ""
    (.start (waterTables 500), []) _ (waterTables_typed (by decide))
    ⟨.string "1", rfl, .inr ⟨"1", rfl⟩⟩ (Prod.ext hcheck rfl) (by decide)
  cases hrun

end LogisticService
