import LogisticService.Server.Observing

/-!
# Every debit is a vetted order

The guard flags of a handler live outside its loop, so a stale verdict of an
earlier message could reach the transfer of a later one. It does not: whatever
the flags were when the message arrived, the two checks overwrite them before
`realTimeUpdate` looks at them. The contract below is therefore proved from
arbitrary loop variables, and it speaks of updates only.
-/

namespace LogisticService

open Effects Program

/-! ## What vetting means -/

/-- The answered operation read the stock of the row an update names, and got `n`. -/
def StockReadOf (u : Update) (n : Int) : Answered Server → Prop
  | ⟨.getHubInventory product hubId, rows⟩ =>
    u.table = .hubs ∧ hubId = u.location ∧ product = u.productName ∧ readStock rows = n
  | ⟨.getWarehouseInventory product warehouseId, rows⟩ =>
    u.table = .warehouses ∧ warehouseId = u.location ∧ product = u.productName ∧
      readStock rows = n
  | _ => False

/-- The limits on the quantity of an order, by its destination and its product. -/
def WithinLimits (destinationType : String) (critical : Bool) (quantity : Int) : Prop :=
  (destinationType = "hub" ∧
      ((critical = true ∧ 20 ≤ quantity ∧ quantity ≤ 100) ∨
        (critical = false ∧ 50 ≤ quantity))) ∨
    (destinationType = "external" ∧ 5 ≤ quantity ∧ (critical = true → quantity ≤ 25))

/-- The source location of an order is a JSON integer or a string. -/
def PlainSource (root : Value) : Prop :=
  ∃ v, root.path sourceLocationPath = .ok v ∧ ((∃ i, v = .int i) ∨ ∃ s, v = .string s)

/-- Everything that was checked about the order `root` with the transfer `t`
when the message has the history `h`. -/
structure Vetted (env : Env) (buffer : String) (h : List (Answered Server)) (root : Value)
    (t : Transfer) : Prop where
  parsed : env.json.parse buffer = .ok (some root)
  transfer : Transfer.ofJson root = .ok t
  quantity : root.intAt productQuantityPath = .ok t.quantity
  action : root.stringAt actionTypePath = .ok "request" ∨ root.stringAt actionTypePath = .ok "req"
  limits : ∃ critical, criticalProducts.lookup t.productName = some critical ∧
    WithinLimits t.destinationType critical t.quantity
  /-- Read during the handling of this message, from the source of this order. -/
  stock : PlainSource root → ∀ d, t.debit = some d →
    ∃ e ∈ h, ∃ n, StockReadOf d n e ∧ t.quantity ≤ n

/-- The updates a handler issues on a message with the history `h`: the debit
of a vetted order, the credit of a hub right after it, or a restock right
after the stock read it is computed from. -/
inductive Issues (env : Env) (buffer : String) : List (Answered Server) → Update → Prop
  | debit (h root t d) (vetted : Vetted env buffer h root t) (hd : t.debit = some d) :
    Issues env buffer h d
  | credit (h e root t d k) (vetted : Vetted env buffer h root t) (hd : t.debit = some d)
      (he : performed e = some d) (hk : t.credit = some k) (htable : k.table = .hubs) :
    Issues env buffer (h ++ [e]) k
  | reStock (h e root w u n) (hparsed : env.json.parse buffer = .ok (some root))
      (hw : WatchedStock.ofJson root = .ok (some w)) (hread : StockReadOf u n e)
      (hlow : n ≤ RESTOCK_THRESHOLD)
      (hu : u = ⟨.warehouses, w.warehouseId, w.productName, MAX_CAPACITY - n⟩) :
    Issues env buffer (h ++ [e]) u

/-! ## The checks, as the transfer sees them -/

theorem checkLimits_within {clientType : String} {critical : Bool} {quantity : Int}
    (h : checkLimits clientType critical quantity = none) :
    WithinLimits clientType critical quantity := by
  unfold checkLimits at h
  unfold MIN_CRITICAL_HUB_QUANTITY MAX_CRITICAL_HUB_QUANTITY MIN_NONCRITICAL_HUB_QUANTITY
    MAX_CRITICAL_EXTERNAL_QUANTITY MIN_EXTERNAL_QUANTITY at h
  split at h
  · next hhub =>
    refine .inl ⟨hhub, ?_⟩
    split at h
    · cases h
    next hcritical =>
    split at h
    · cases h
    next hother =>
    cases critical with
    | true =>
      simp only [Bool.true_and, Bool.or_eq_true, decide_eq_true_eq] at hcritical
      exact .inl ⟨rfl, by omega⟩
    | false =>
      simp only [Bool.not_false, Bool.true_and, decide_eq_true_eq] at hother
      exact .inr ⟨rfl, by omega⟩
  · split at h
    · next hexternal =>
      refine .inr ⟨hexternal, ?_⟩
      split at h
      · cases h
      next hcritical =>
      split at h
      · cases h
      next hany =>
      refine ⟨by omega, ?_⟩
      rintro rfl
      simp only [Bool.true_and, decide_eq_true_eq] at hcritical
      omega
    · cases h

/-- What the validator made sure of, on the fields the transfer reads. -/
theorem checkOrder_vets {root : Value} {t : Transfer} (h : checkOrder root = .ok none)
    (ht : Transfer.ofJson root = .ok t) :
    (root.stringAt actionTypePath = .ok "request" ∨ root.stringAt actionTypePath = .ok "req") ∧
      ∃ critical, criticalProducts.lookup t.productName = some critical ∧
        WithinLimits t.destinationType critical t.quantity := by
  obtain ⟨_, _, hdest, hname, hquantity⟩ := Transfer.ofJson_ok ht
  obtain ⟨generalInfo, hinfo, h⟩ := Except.seq_ok h
  split at h
  · cases h
  obtain ⟨destination, hd, h⟩ := Except.seq_ok h
  obtain ⟨action, ha, h⟩ := Except.seq_ok h
  obtain ⟨product, hp, h⟩ := Except.seq_ok h
  split at h
  · cases h
  obtain ⟨v₁, h₁, h⟩ := Except.seq_ok h
  obtain ⟨clientType, h₁', h⟩ := Except.seq_ok h
  obtain ⟨v₂, h₂, h⟩ := Except.seq_ok h
  obtain ⟨actionType, h₂', h⟩ := Except.seq_ok h
  obtain ⟨v₃, h₃, h⟩ := Except.seq_ok h
  obtain ⟨productName, h₃', h⟩ := Except.seq_ok h
  obtain ⟨v₄, h₄, h⟩ := Except.seq_ok h
  obtain ⟨quantity, h₄', h⟩ := Except.seq_ok h
  -- each field of the validator is the one the transfer reads
  have hdest' : t.destinationType = clientType := by
    rw [destinationTypePath, Value.stringAt_cons hinfo, Value.stringAt_cons hd,
      Value.stringAt_cons h₁] at hdest
    exact Except.ok.inj (hdest.symm.trans h₁')
  have hname' : t.productName = productName := by
    rw [productNamePath, Value.stringAt_cons hinfo, Value.stringAt_cons ha,
      Value.stringAt_cons hp, Value.stringAt_cons h₃] at hname
    exact Except.ok.inj (hname.symm.trans h₃')
  have hquantity' : t.quantity = quantity := by
    rw [productQuantityPath, Value.intAt_cons hinfo, Value.intAt_cons ha,
      Value.intAt_cons hp, Value.intAt_cons h₄] at hquantity
    exact Except.ok.inj (hquantity.symm.trans h₄')
  have haction : root.stringAt actionTypePath = .ok actionType := by
    rw [actionTypePath, Value.stringAt_cons hinfo, Value.stringAt_cons ha,
      Value.stringAt_cons h₂]
    exact h₂'
  rw [hdest', hname', hquantity', haction]
  unfold checkFields at h
  split at h
  · cases h
  split at h
  · cases h
  next hrequest =>
  obtain ⟨critical, hcritical, h⟩ := Except.seq_ok h
  refine ⟨?_, critical, ?_, checkLimits_within (Except.ok.inj h)⟩
  · by_cases hreq : actionType = "request"
    · exact .inl (congrArg Except.ok hreq)
    · have : actionType = "req" := by simpa [hreq] using hrequest
      exact .inr (congrArg Except.ok this)
  · unfold isCriticalProduct at hcritical
    split at hcritical
    · next found hfound => cases hcritical; exact hfound
    · cases hcritical

/-- A stock that covers the order was read from its source. -/
def Covered (root : Value) (h : List (Answered Server)) : Prop :=
  ∃ r d, StockRequest.ofJson root = .ok (.ok r) ∧
    Update.ofType r.sourceType r.sourceId r.productName (-r.requestedQuantity) = some d ∧
    ∃ e ∈ h, ∃ n, StockReadOf d n e ∧ r.requestedQuantity ≤ n

theorem Covered.append {root : Value} {h : List (Answered Server)} (hs : Covered root h)
    (h' : List (Answered Server)) : Covered root (h ++ h') := by
  obtain ⟨r, d, hr, hd, e, he, hread⟩ := hs
  exact ⟨r, d, hr, hd, e, List.mem_append_left _ he, hread⟩

/-- The stock check parsed the location from its text, the transfer took it as
a number. On integers the two agree; on a string there is no transfer. -/
theorem sourceId_eq {root : Value} {t : Transfer} {r : StockRequest} (hplain : PlainSource root)
    (ht : Transfer.ofJson root = .ok t) (hr : StockRequest.ofJson root = .ok (.ok r)) :
    r.sourceId = t.sourceLocation := by
  obtain ⟨v, hv, hkind⟩ := hplain
  have hint : v.asInt = .ok t.sourceLocation := by
    have h := (Transfer.ofJson_ok ht).2.1
    rw [Value.intAt, hv] at h
    exact h
  obtain ⟨text, htext, hid⟩ := (StockRequest.ofJson_ok hr).2.1
  have hstring : v.asString = .ok text := by
    rw [Value.stringAt, hv] at htext
    exact htext
  rcases hkind with ⟨i, rfl⟩ | ⟨s, rfl⟩
  · have hstoi := Value.stoi_asString_of_asInt hint
    cases hstring
    exact Except.ok.inj (hid.symm.trans hstoi)
  · cases hint

/-- An order that passed both checks is vetted for its transfer. -/
theorem Vetted.of_checks {env : Env} {buffer : String} {h : List (Answered Server)} {root : Value}
    {t : Transfer} (hparsed : env.json.parse buffer = .ok (some root))
    (hlimits : checkOrder root = .ok none) (hstock : Covered root h)
    (ht : Transfer.ofJson root = .ok t) : Vetted env buffer h root t where
  parsed := hparsed
  transfer := ht
  quantity := (Transfer.ofJson_ok ht).2.2.2.2
  action := (checkOrder_vets hlimits ht).1
  limits := (checkOrder_vets hlimits ht).2
  stock hplain d hd := by
    obtain ⟨r, d', hr, hd', e, he, n, hread, hle⟩ := hstock
    obtain ⟨htype, _, hname, hquantity⟩ := StockRequest.ofJson_ok hr
    obtain ⟨htype', _, _, hname', hquantity'⟩ := Transfer.ofJson_ok ht
    have h₁ : r.sourceType = t.sourceType := Except.ok.inj (htype.symm.trans htype')
    have h₂ : r.productName = t.productName := Except.ok.inj (hname.symm.trans hname')
    have h₃ : r.requestedQuantity = t.quantity := Except.ok.inj (hquantity.symm.trans hquantity')
    have h₄ : r.sourceId = t.sourceLocation := sourceId_eq hplain ht hr
    rw [h₁, h₂, h₃, h₄] at hd'
    rw [h₃] at hle
    obtain rfl : d' = d := Option.some.inj (hd'.symm.trans hd)
    exact ⟨e, he, n, hread, hle⟩

/-- The destination of a vetted order is no warehouse, and its quantity is positive. -/
theorem Vetted.credit_table {env : Env} {buffer : String} {h : List (Answered Server)}
    {root : Value} {t : Transfer} (hv : Vetted env buffer h root t) :
    0 < t.quantity ∧ ∀ k, t.credit = some k → k.table = .hubs := by
  obtain ⟨critical, _, hwithin⟩ := hv.limits
  unfold WithinLimits at hwithin
  constructor
  · omega
  · intro k hk
    obtain ⟨_, _, _, ⟨_, htable⟩ | ⟨htype, _⟩⟩ := Update.ofType_some hk
    · exact htable
    · rcases hwithin with ⟨hhub, _⟩ | ⟨hexternal, _⟩
      · exact absurd (htype.symm.trans hhub) (by decide)
      · exact absurd (htype.symm.trans hexternal) (by decide)

/-! ## The contract of an iteration -/

/-- A part of a handler issues vetted updates only, and ends in `Q`. -/
abbrev Vets (env : Env) (buffer : String) {α : Type} (p : Handling α)
    (Q : List (Answered Server) → α → Prop) (h : List (Answered Server)) : Prop :=
  p.Meets (fun _ _ => True)
    (fun h (o : Operation) => ∀ u, o.update? = some u → Issues env buffer h u) Q h

section

variable {env : Env} {origin : Origin} {buffer : String} {h : List (Answered Server)}

theorem ask_vets {o : Operation} {Q : List (Answered Server) → o.Reply → Prop}
    (ho : o.update? = none) (hQ : ∀ r, Q (h ++ [⟨o, r⟩]) r) : Vets env buffer (ask o) Q h :=
  ⟨fun _ hu => absurd (ho.symm.trans hu) (by simp), fun r _ => hQ r⟩

/-- A part that only observes issues nothing. -/
theorem vets_of_passive {α : Type} {p : Handling α} (hp : p.Only Operation.Passive) :
    Vets env buffer p (fun _ _ => True) h :=
  hp.meets (P := fun _ => True)
    (fun _ _ _ ho u hu => by cases (Operation.Passive.update? ho).symm.trans hu)
    (fun _ _ _ _ _ => trivial) trivial

theorem reply_vets {text : String} :
    Vets env buffer (origin.reply text) (fun h' _ => ∃ es, h' = h ++ es) h := by
  cases origin with
  | udp cliAddr =>
    have hsend := @ask_vets env buffer h (.sendto cliAddr text)
      (fun h' _ => ∃ es, h' = h ++ es) rfl fun r => ⟨_, rfl⟩
    exact hsend.bind fun h' _ hh' => hh'
  | tcp clientSockfd => exact ask_vets rfl fun r => ⟨_, rfl⟩

theorem replyIf_vets {condition : Bool} {text : String} :
    Vets env buffer (replyIf origin.reply condition text) (fun h' _ => ∃ es, h' = h ++ es) h := by
  unfold replyIf
  cases condition with
  | true => exact reply_vets
  | false => exact ⟨[], by simp⟩

/-- An update call issues its update. -/
theorem Update.call_vets {u : Update} {Q : List (Answered Server) → Int → Prop}
    (hu : Issues env buffer h u)
    (hQ : ∀ e : Answered Server, e.1.update? = some u → Q (h ++ [e]) (callResult e)) :
    Vets env buffer u.call Q h := by
  obtain ⟨o, ho, hcall⟩ := u.call_eq
  rw [hcall]
  refine ⟨fun u' hu' => ?_, fun r _ => hQ ⟨o, r⟩ ho⟩
  obtain rfl : u = u' := Option.some.inj (ho.symm.trans hu')
  exact hu

/-! ### The two checks -/

theorem validateStage_vets {root : Value} {s : Loop} :
    Vets env buffer (validateStage env origin.reply root s)
      (fun _ r => r.1.isValid = true → checkOrder root = .ok none) h := by
  unfold validateStage
  refine Meets.bind (Meets.ofExcept (Q := fun _ r =>
    validateOrderLimits env.json root s.errorMessage = .ok r) fun r hr => hr) ?_
  intro h' r hr
  obtain ⟨valid, message⟩ := r
  refine Meets.bind replyIf_vets fun h'' go _ => ?_
  intro hvalid
  obtain ⟨verdict, hverdict, hr⟩ := Except.seq_ok hr
  cases verdict with
  | none => exact hverdict
  | some rejection =>
    cases hr
    cases hvalid

theorem judge_none {r : StockRequest} {stock : Int} (h : r.judge stock = none) :
    r.requestedQuantity ≤ stock := by
  unfold StockRequest.judge at h
  split at h
  · cases h
  · split at h
    · next hle => exact hle
    · cases h

/-- A request that is not refused had its stock read. -/
theorem stockVerdict_vets {root : Value} :
    Vets env buffer (stockVerdict root) (fun h' verdict => verdict = none → Covered root h') h := by
  unfold stockVerdict
  refine Meets.bind (Meets.ofExcept (Q := fun _ r => StockRequest.ofJson root = .ok r)
    fun r hr => hr) ?_
  intro h' request hrequest
  cases request with
  | error rejection =>
    intro hnone
    cases hnone
  | ok r =>
    show Vets env buffer r.check _ h'
    unfold StockRequest.check
    have hread : ∀ (d : Update) (e : Answered Server) (n : Int),
        Update.ofType r.sourceType r.sourceId r.productName (-r.requestedQuantity) = some d →
        StockReadOf d n e → r.judge n = none → Covered root (h' ++ [e]) :=
      fun d e n hd hof hnone => ⟨r, d, hrequest, hd, e, by simp, n, hof, judge_none hnone⟩
    by_cases hhub : r.sourceType = "hub"
    · rw [if_pos hhub]
      refine ⟨fun u hu => (by cases hu), fun rows _ hnone => ?_⟩
      refine hread ⟨.hubs, r.sourceId, r.productName, -r.requestedQuantity⟩ _ (readStock rows) ?_
        ⟨rfl, rfl, rfl, rfl⟩ hnone
      rw [Update.ofType, if_pos hhub]
    · rw [if_neg hhub]
      by_cases hwarehouse : r.sourceType = "warehouse"
      · rw [if_pos hwarehouse]
        refine ⟨fun u hu => (by cases hu), fun rows _ hnone => ?_⟩
        refine hread ⟨.warehouses, r.sourceId, r.productName, -r.requestedQuantity⟩ _
          (readStock rows) ?_ ⟨rfl, rfl, rfl, rfl⟩ hnone
        rw [Update.ofType, if_neg hhub, if_pos hwarehouse]
      · rw [if_neg hwarehouse]
        intro hnone
        cases hnone

/-- A stock check that finds enough has read the stock. -/
theorem checkProductStock_vets {root : Value} {message : String} :
    Vets env buffer (checkProductStock env.json root message)
      (fun h' r => r.1 = true → Covered root h') h := by
  unfold checkProductStock
  refine Meets.bind stockVerdict_vets fun h' verdict hverdict => ?_
  cases verdict with
  | none => exact fun _ => hverdict rfl
  | some rejection =>
    intro htrue
    cases htrue

theorem stockStage_vets {root : Value} {s : Loop} :
    Vets env buffer (stockStage env origin.reply root s)
      (fun h' r => r.1.isValid = s.isValid ∧ (r.1.productStock = true → Covered root h')) h := by
  unfold stockStage
  refine Meets.bind checkProductStock_vets fun h' r hr => ?_
  obtain ⟨inStock, message⟩ := r
  refine Meets.bind replyIf_vets fun h'' go hgrows => ⟨rfl, fun hstock => ?_⟩
  obtain ⟨es, rfl⟩ := hgrows
  exact (hr hstock).append es

/-! ### The updates -/

theorem Transfer.perform_vets {root : Value} {t : Transfer} (ht : Vetted env buffer h root t) :
    Vets env buffer t.perform (fun _ _ => True) h := by
  cases hd : t.debit with
  | none =>
    rw [Transfer.perform_of_no_debit hd]
    trivial
  | some d =>
    rw [Transfer.perform_of_debit hd]
    refine Meets.bind (Update.call_vets (Q := fun h' result => ∃ e : Answered Server,
      h' = h ++ [e] ∧ e.1.update? = some d ∧ result = callResult e)
      (.debit h root t d ht hd) fun e he => ⟨e, rfl, he, rfl⟩) ?_
    intro h' result hcall
    obtain ⟨e, rfl, he, rfl⟩ := hcall
    by_cases hpos : callResult e > 0
    · rw [if_pos hpos]
      cases hk : t.credit with
      | none => trivial
      | some k =>
        have hdone : performed e = some d := performed_of_pos he hpos
        have htable : k.table = .hubs := ht.credit_table.2 k hk
        exact Update.call_vets (.credit h e root t d k ht hd hdone hk htable) fun _ _ => trivial
    · rw [if_neg hpos]
      trivial

/-- Both flags are those the two checks have just set. -/
theorem updateStage_vets {root : Value} {s : Loop}
    (hparsed : env.json.parse buffer = .ok (some root))
    (hvalid : s.isValid = true → checkOrder root = .ok none)
    (hstock : s.productStock = true → Covered root h) :
    Vets env buffer (updateStage origin.reply root s) (fun _ _ => True) h := by
  unfold updateStage
  by_cases hboth : (s.productStock && s.isValid) = true
  · rw [if_pos hboth]
    obtain ⟨hp, hv⟩ := (Bool.and_eq_true _ _).mp hboth
    have hupdate : Vets env buffer (realTimeUpdate root) (fun _ _ => True) h := by
      unfold realTimeUpdate
      refine Meets.bind (Meets.ofExcept (Q := fun h' t => h' = h ∧ Transfer.ofJson root = .ok t)
        fun t ht => ⟨rfl, ht⟩) ?_
      intro h' t ht
      obtain ⟨rfl, ht⟩ := ht
      exact Transfer.perform_vets (.of_checks hparsed (hvalid hv) (hstock hp) ht)
    exact hupdate.bind fun _ _ _ => Meets.bind replyIf_vets fun _ _ _ => trivial
  · rw [if_neg hboth]
    trivial

/-- A warehouse check and its alert. -/
theorem alertStage_vets {check : Handling (Bool × String)} (after : Bool → String → Loop)
    (hcheck : Vets env buffer check (fun _ _ => True) h) :
    Vets env buffer (check >>= fun r => replyIf origin.reply r.1 r.2 >>= fun go =>
      Program.pure (after r.1 r.2, go)) (fun _ _ => True) h :=
  hcheck.bind fun _ _ _ => Meets.bind replyIf_vets fun _ _ _ => trivial

theorem lowStockStage_vets {root : Value} {s : Loop} :
    Vets env buffer (lowStockStage env origin.reply root s) (fun _ _ => True) h :=
  alertStage_vets (fun b a => { s with lowStock := b, alertOut := a })
    (vets_of_passive (checkLowStockAlert_observes _ _ _))

/-- The update of a restock comes right after its own stock read. -/
theorem reStock_vets {root : Value} {alertOut : String}
    (hparsed : env.json.parse buffer = .ok (some root)) :
    Vets env buffer (reStock env.json root alertOut) (fun _ _ => True) h := by
  unfold reStock
  refine Meets.bind (Meets.ofExcept (Q := fun h' w => h' = h ∧ WatchedStock.ofJson root = .ok w)
    fun w hw => ⟨rfl, hw⟩) ?_
  intro h' w hw
  obtain ⟨rfl, hw⟩ := hw
  cases w with
  | none => trivial
  | some w =>
    refine ⟨fun u hu => (by cases hu), fun rows _ => ?_⟩
    show Vets env buffer (if readStock rows = -1 then _ else _) _ _
    by_cases herror : readStock rows = -1
    · rw [if_pos herror]
      trivial
    rw [if_neg herror]
    by_cases hlow : readStock rows ≤ RESTOCK_THRESHOLD
    · rw [if_pos hlow]
      have hissue : Issues env buffer
          (h' ++ [⟨.getWarehouseInventory w.productName w.warehouseId, rows⟩])
          ⟨.warehouses, w.warehouseId, w.productName, MAX_CAPACITY - readStock rows⟩ :=
        .reStock h' _ root w _ (readStock rows) hparsed hw ⟨rfl, rfl, rfl, rfl⟩ hlow rfl
      refine Meets.bind (Update.call_vets (Q := fun _ _ => True) hissue fun _ _ => trivial)
        fun _ result _ => ?_
      split <;> trivial
    · rw [if_neg hlow]
      trivial

theorem reStockStage_vets {root : Value} {s : Loop}
    (hparsed : env.json.parse buffer = .ok (some root)) :
    Vets env buffer (reStockStage env origin.reply root s) (fun _ _ => True) h :=
  alertStage_vets (fun b a => { s with reStocked := b, alertOut := a })
    (reStock_vets hparsed)

/-! ### A message -/

/-- Stages follow each other; only the first may rely on nothing. -/
theorem stages_vets {P : List (Answered Server) → Loop → Prop}
    {stage : Loop → Handling (Loop × Bool)} {rest : List (Loop → Handling (Loop × Bool))}
    {s : Loop} (hstage : Vets env buffer (stage s) (fun h' r => P h' r.1) h)
    (hrest : ∀ h' s', P h' s' → Vets env buffer (stages rest s') (fun _ _ => True) h') :
    Vets env buffer (stages (stage :: rest) s) (fun _ _ => True) h :=
  stages_meets hstage hrest fun _ _ _ => trivial

theorem orderStages_vets {root : Value} {s : Loop}
    (hparsed : env.json.parse buffer = .ok (some root)) :
    Vets env buffer (orderStages env origin.reply root s) (fun _ _ => True) h := by
  unfold orderStages
  refine stages_vets (P := fun _ s => s.isValid = true → checkOrder root = .ok none)
    validateStage_vets ?_
  intro h₁ s₁ hvalid
  have hstock := @stockStage_vets env origin buffer h₁ root s₁
  refine stages_vets (P := fun h s => s.isValid = s₁.isValid ∧
    (s.productStock = true → Covered root h)) hstock ?_
  intro h₂ s₂ hchecked
  obtain ⟨hsame, hcovered⟩ := hchecked
  refine stages_vets (P := fun _ _ => True)
    (updateStage_vets hparsed (fun hv => hvalid (hsame ▸ hv)) hcovered) fun h₃ s₃ _ => ?_
  refine stages_vets (P := fun _ _ => True) lowStockStage_vets fun h₄ s₄ _ => ?_
  exact stages_vets (P := fun _ _ => True) (reStockStage_vets hparsed) fun _ _ _ => trivial

theorem orderBranch_vets {s : Loop} :
    Vets env buffer (orderBranch env origin.reply buffer s) (fun _ _ => True) h := by
  unfold orderBranch handleOrder
  split
  · refine Meets.bind (ask_vets (Q := fun _ _ => True) rfl fun _ => trivial) fun h₁ stored _ => ?_
    refine Meets.bind (Meets.ofExcept (Q := fun _ _ => True) fun _ _ => trivial) fun h₂ _ _ => ?_
    refine Meets.bind (Meets.ofExcept (Q := fun _ v => env.json.parse buffer = .ok v)
      fun v hv => hv) fun h₃ v hv => ?_
    cases v with
    | none => trivial
    | some root => exact orderStages_vets hv
  · trivial

theorem processMessage_vets {protocol : String} {clientId : Int} :
    Vets env buffer (processMessage env.json buffer protocol clientId) (fun _ _ => True) h :=
  vets_of_passive (processMessage_observes _ _ _ _)

theorem handleMessage_vets {protocol : String} {s : Loop} :
    Vets env buffer (handleMessage env origin.reply protocol buffer s) (fun _ _ => True) h := by
  unfold handleMessage
  refine Meets.bind orderBranch_vets fun h₁ r _ => ?_
  dsimp only
  split
  · exact Meets.bind processMessage_vets fun _ _ _ => trivial
  · trivial

/-- **The contract of an iteration** on updates, of either handler, on any
message, from any loop variables. -/
theorem iteration_vets {s : Loop} :
    Vets env buffer (iteration env origin buffer s) (fun _ _ => True) h := by
  cases origin with
  | udp cliAddr =>
    refine Meets.bind (ask_vets (Q := fun _ _ => True) rfl fun _ => trivial)
      fun h₁ registered _ => ?_
    split
    · exact Meets.bind (ask_vets (Q := fun _ _ => True) rfl fun _ => trivial) fun _ _ _ => trivial
    · have hreply := @reply_vets env (.udp cliAddr) buffer h₁ "UDP Server received your message."
      exact hreply.bind fun h₂ _ _ => @handleMessage_vets env (.udp cliAddr) buffer h₂ "UDP" s
  | tcp fd =>
    have hreply := @reply_vets env (.tcp fd) buffer h "TCP Server received your message."
    refine hreply.bind fun h₁ written _ => ?_
    split
    · exact @handleMessage_vets env (.tcp fd) buffer h₁ "TCP" s
    · trivial

end

/-! ## Runs -/

/-- A stock raised in a warehouse was raised by `reStock`, computed from the
last thing the handler did. -/
def RaisedByReStock (h : List (Answered Server)) (u : Update) : Prop :=
  ∃ h₀ e n, h = h₀ ++ [e] ∧ StockReadOf u n e ∧ n ≤ RESTOCK_THRESHOLD ∧
    u.quantity = MAX_CAPACITY - n

/-- The event, when it answers an update of a handler, answers one that the
history of the handler's message allows. -/
def VettedStep {env : Env} (s : Sys env) (e : Event) : Prop :=
  ∀ who ok job o k u, e = .proceed who ok → s.activity? who = some (.busy job) →
    job.task.rest = .call o k → o.update? = some u →
      Issues env job.buffer job.task.history u ∧
        (u.table = .warehouses → 0 < u.quantity → RaisedByReStock job.task.history u)

/-- Among the updates a handler issues only a restock raises a warehouse. -/
theorem Issues.raises {env : Env} {buffer : String} {h : List (Answered Server)} {u : Update}
    (hi : Issues env buffer h u) (htable : u.table = .warehouses) (hpos : 0 < u.quantity) :
    RaisedByReStock h u := by
  cases hi with
  | debit _ root t _ hv hd =>
    have hquantity : u.quantity = -t.quantity := (Update.ofType_some hd).2.2.1
    have hvetted : 0 < t.quantity := hv.credit_table.1
    omega
  | credit h₀ e root t d _ hv hd he hk hhubs =>
    rw [hhubs] at htable
    cases htable
  | reStock h₀ e root w _ n hparsed hw hread hlow hu =>
    exact ⟨h₀, e, n, rfl, hread, hlow, by rw [hu]⟩

/-- One step from any state of the server: the handler's history is a trace of
its iteration, so the contract bounds what it asks for. -/
theorem vettedStep {env : Env} (s : Sys env) (e : Event) : VettedStep s e := by
  intro who ok job o k u _ _ hrest hu
  have hmeets := @iteration_vets env job.origin job.buffer [] job.loop
  have hissued := hmeets.issued (Task.leads_call hrest) (fun _ _ => trivial)
  have hi : Issues env job.buffer job.task.history u := hissued u hu
  exact ⟨hi, hi.raises⟩

/-- **Every debit is a vetted order**, along every run, from every state and
under every interleaving; no order credits a warehouse. -/
theorem debits_vetted (env : Env) (s : Sys env) (es : List Event) :
    Along Sys.step VettedStep s es := by
  induction es generalizing s with
  | nil => trivial
  | cons e es ih =>
    intro s' _
    exact ⟨vettedStep s e, ih s'⟩

end LogisticService
