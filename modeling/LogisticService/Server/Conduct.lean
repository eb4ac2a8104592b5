import LogisticService.Server.Requests

/-!
# The handlers ask for nothing else

The contract of an iteration, one stage of the order pipeline after another:
what a stage asks for (`Asks`), and what the history and the loop variables
look like when it is done. Replies are not restricted, so a failed send or
database call is among the cases of every lemma.
-/

namespace LogisticService

open Effects Program

/-- A part of a handler, on a message with the history `h`, asks only for what
it may, and ends in `Q`. -/
abbrev Conducts (env : Env) (origin : Origin) (buffer : String) {α : Type} (p : Handling α)
    (Q : List (Answered Server) → α → Prop) (h : List (Answered Server)) : Prop :=
  p.Meets (fun _ _ => True) (Asks env origin buffer) Q h

/-- The replies of the handler that serves `origin`. -/
def Origin.reply : Origin → String → Handling Bool
  | .udp cliAddr => udpReply cliAddr
  | .tcp clientSockfd => tcpReply clientSockfd

/-- The alert string holds nothing or an alert. -/
def AlertOk (env : Env) (s : Loop) : Prop := s.alertOut = "" ∨ IsAlert env.json s.alertOut

/-- After the two checks: nothing was updated, and an order that failed one of
them was answered with an error. -/
structure Checked (env : Env) (origin : Origin) (root : Value) (h : List (Answered Server))
    (s : Loop) : Prop where
  quiet : Quiet h
  accepted : s.isValid = true → s.productStock = true → Clean env h ∧ Accepted root
  rejected : s.isValid = false ∨ s.productStock = false → ErrorSent env origin h

/-- After the transfer: an accepted order was debited, and unless a side of it
failed the sender was told of its success; a rejected one had its error. -/
structure Settled (env : Env) (origin : Origin) (buffer : String) (h : List (Answered Server))
    (s : Loop) : Prop where
  accepted : s.isValid = true → s.productStock = true →
    (∃ t d, AcceptedTransfer env buffer t ∧ t.debit = some d ∧ Asked h d) ∧
      (SuccessSent origin h ∨ TransferFailed h)
  rejected : s.isValid = false ∨ s.productStock = false → ErrorSent env origin h

section

variable {env : Env} {origin : Origin} {buffer : String} {h : List (Answered Server)}

theorem ask_conducts {o : Operation} {Q : List (Answered Server) → o.Reply → Prop}
    (hG : Asks env origin buffer h o) (hQ : ∀ r, Q (h ++ [⟨o, r⟩]) r) :
    Conducts env origin buffer (ask o) Q h := ⟨hG, fun r _ => hQ r⟩

/-- A reply stops the handler only when its send failed. -/
theorem reply_conducts {text : String} {Q : List (Answered Server) → Bool → Prop}
    (hG : Asks env origin buffer h (origin.send text))
    (hQ : ∀ e go, e.1 = origin.send text → (go = false → sendFailed e = true) → Q (h ++ [e]) go) :
    Conducts env origin buffer (origin.reply text) Q h := by
  cases origin with
  | udp cliAddr => exact ⟨hG, fun r _ => hQ ⟨.sendto cliAddr text, r⟩ true rfl (by simp)⟩
  | tcp clientSockfd =>
    exact ⟨hG, fun r _ => hQ ⟨.write clientSockfd text, r⟩ r rfl fun hr => by subst hr; rfl⟩

theorem replyIf_conducts {condition : Bool} {text : String}
    {Q : List (Answered Server) → Bool → Prop}
    (hG : condition = true → Asks env origin buffer h (origin.send text))
    (hsent : condition = true → ∀ e go, e.1 = origin.send text →
      (go = false → sendFailed e = true) → Q (h ++ [e]) go)
    (hnot : condition = false → Q h true) :
    Conducts env origin buffer (replyIf origin.reply condition text) Q h := by
  unfold replyIf
  cases condition with
  | true => exact reply_conducts (hG rfl) (hsent rfl)
  | false => exact hnot rfl

/-! ## Stages -/

/-- A stage that goes on left `P`; one that does not had a send fail. The
client id of the loop stays, and its alert string remains one. -/
def StageEnds (env : Env) (P : List (Answered Server) → Loop → Prop) (s : Loop)
    (h : List (Answered Server)) (r : Loop × Bool) : Prop :=
  (r.2 = true → P h r.1) ∧ (r.2 = false → Broken h) ∧ r.1.clientId = s.clientId ∧ AlertOk env r.1

theorem broken_of_failed {e : Answered Server} (he : sendFailed e = true) : Broken (h ++ [e]) :=
  ⟨e, by simp, he⟩

/-- Stages follow each other as long as they go on. -/
theorem stages_conducts {P P' : List (Answered Server) → Loop → Prop}
    {stage : Loop → Handling (Loop × Bool)} {rest : List (Loop → Handling (Loop × Bool))}
    {s : Loop} (hstage : Conducts env origin buffer (stage s) (StageEnds env P s) h)
    (hrest : ∀ h' s', P h' s' → AlertOk env s' →
      Conducts env origin buffer (stages rest s') (StageEnds env P' s') h') :
    Conducts env origin buffer (stages (stage :: rest) s) (StageEnds env P' s) h := by
  refine stages_meets hstage (fun h' s' hend => ?_) fun h' s' hend => ?_
  · obtain ⟨hgo, _, hid, halert⟩ := hend
    refine (hrest h' s' (hgo rfl) halert).mono (fun _ _ h => h) (fun _ _ h => h) ?_
    rintro h'' r' ⟨hgo', hstop', hid', halert'⟩
    exact ⟨hgo', hstop', hid'.trans hid, halert'⟩
  · obtain ⟨_, hstop, hid, halert⟩ := hend
    exact ⟨by simp, hstop, hid, halert⟩

/-! ### The two checks -/

theorem validateOrderLimits_ok {json : JsonCpp} {root : Value} {error message : String}
    {valid : Bool} (h : validateOrderLimits json root error = .ok (valid, message)) :
    (valid = true ∧ checkOrder root = .ok none) ∨ (valid = false ∧ IsErrorJson json message) := by
  obtain ⟨r, hr, h⟩ := Except.seq_ok h
  cases r with
  | none => cases h; exact .inl ⟨rfl, hr⟩
  | some r => cases h; exact .inr ⟨rfl, _, _, _, _, rfl⟩

theorem validateStage_conducts {root : Value} {s : Loop} (hbrace : beginsWithBrace buffer = true)
    (hquiet : Quiet h) (hclean : Clean env h) (halert : AlertOk env s) :
    Conducts env origin buffer (validateStage env origin.reply root s)
      (StageEnds env (fun h s => Quiet h ∧
        (s.isValid = true → Clean env h ∧ checkOrder root = .ok none) ∧
        (s.isValid = false → ErrorSent env origin h)) s) h := by
  unfold validateStage
  refine Meets.bind (Meets.ofExcept (Q := fun h' r => h' = h ∧
    validateOrderLimits env.json root s.errorMessage = .ok r) fun r hr => ⟨rfl, hr⟩) ?_
  rintro h ⟨valid, message⟩ ⟨rfl, hv⟩
  refine Meets.bind (Q := fun h' go => (Quiet h' ∧
    (valid = true → Clean env h' ∧ checkOrder root = .ok none) ∧
    (valid = false → ErrorSent env origin h')) ∧ (go = false → Broken h'))
    (replyIf_conducts ?_ ?_ ?_) fun h' go hend => ⟨fun _ => hend.1, hend.2, rfl, halert⟩
  · intro hcond
    obtain ⟨rfl, _⟩ | ⟨rfl, herror⟩ := validateOrderLimits_ok hv
    · cases hcond
    · exact .error _ _ hbrace herror hquiet
  · intro hcond e go he hgo
    obtain ⟨rfl, _⟩ | ⟨rfl, herror⟩ := validateOrderLimits_ok hv
    · cases hcond
    · refine ⟨⟨hquiet.snoc (by simp [he]), by simp, fun _ => ?_⟩, fun h => broken_of_failed (hgo h)⟩
      exact ⟨e, by simp, message, he, herror⟩
  · intro hcond
    obtain ⟨rfl, hlimits⟩ | ⟨rfl, _⟩ := validateOrderLimits_ok hv
    · exact ⟨⟨hquiet, fun _ => ⟨hclean, hlimits⟩, by simp⟩, by simp⟩
    · cases hcond

/-- A stock read is answered once. -/
theorem getHubInventory_conducts {hubId : Int} {product : String}
    {Q : List (Answered Server) → Int → Prop}
    (hQ : ∀ rows, Q (h ++ [⟨.getHubInventory product hubId, rows⟩]) (readStock rows)) :
    Conducts env origin buffer (getHubInventory hubId product) Q h :=
  ⟨.getHubInventory _ _ _, fun rows _ => hQ rows⟩

theorem getWarehouseInventory_conducts {warehouseId : Int} {product : String}
    {Q : List (Answered Server) → Int → Prop}
    (hQ : ∀ rows, Q (h ++ [⟨.getWarehouseInventory product warehouseId, rows⟩]) (readStock rows)) :
    Conducts env origin buffer (getWarehouseInventory warehouseId product) Q h :=
  ⟨.getWarehouseInventory _ _ _, fun rows _ => hQ rows⟩

theorem updateWarehouseInventory_conducts {warehouseId quantity : Int} {product : String}
    {Q : List (Answered Server) → Int → Prop}
    (hG : Asks env origin buffer h (.updateWarehouseInventory warehouseId product quantity))
    (hQ : ∀ n, Q (h ++ [⟨.updateWarehouseInventory warehouseId product quantity, n⟩])
      (updateResult n)) :
    Conducts env origin buffer (updateWarehouseInventory warehouseId product quantity) Q h :=
  ⟨hG, fun n _ => hQ n⟩

theorem ErrorSent.append {h' : List (Answered Server)} (he : ErrorSent env origin h) :
    ErrorSent env origin (h ++ h') := by
  obtain ⟨e, hin, text, hsend, htext⟩ := he
  exact ⟨e, List.mem_append_left _ hin, text, hsend, htext⟩

/-- The stock check reads at most one stock, of a source it knows. -/
theorem stockVerdict_conducts {root : Value} :
    Conducts env origin buffer (stockVerdict root) (fun h' verdict =>
      (∃ es : List (Answered Server), h' = h ++ es ∧
        ∀ e ∈ es, e.1.update? = none ∧ e.1.text? = none) ∧
      (verdict = none → ∃ r, StockRequest.ofJson root = .ok (.ok r) ∧
        (r.sourceType = "hub" ∨ r.sourceType = "warehouse"))) h := by
  unfold stockVerdict
  refine Meets.bind (Meets.ofExcept (Q := fun h' r => h' = h ∧ StockRequest.ofJson root = .ok r)
    fun r hr => ⟨rfl, hr⟩) ?_
  rintro h request ⟨rfl, hrequest⟩
  cases request with
  | error rejection => exact ⟨⟨[], by simp, by simp⟩, by simp⟩
  | ok r =>
    show Conducts env origin buffer r.check _ h
    unfold StockRequest.check
    split
    · next hhub =>
      exact Meets.bind (getHubInventory_conducts (Q := fun h' _ => ∃ rows,
          h' = h ++ [⟨.getHubInventory r.productName r.sourceId, rows⟩]) fun rows => ⟨rows, rfl⟩)
        fun h' stock ⟨rows, hh'⟩ => ⟨⟨_, hh', by simp [Operation.update?, Operation.text?]⟩,
          fun _ => ⟨r, hrequest, .inl hhub⟩⟩
    · split
      · next hwarehouse =>
        exact Meets.bind (getWarehouseInventory_conducts (Q := fun h' _ => ∃ rows,
            h' = h ++ [⟨.getWarehouseInventory r.productName r.sourceId, rows⟩])
            fun rows => ⟨rows, rfl⟩)
          fun h' stock ⟨rows, hh'⟩ => ⟨⟨_, hh', by simp [Operation.update?, Operation.text?]⟩,
            fun _ => ⟨r, hrequest, .inr hwarehouse⟩⟩
      · exact ⟨⟨[], by simp, by simp⟩, by simp⟩

theorem checkProductStock_conducts {root : Value} {errorMessage : String} :
    Conducts env origin buffer (checkProductStock env.json root errorMessage) (fun h' r =>
      (∃ es : List (Answered Server), h' = h ++ es ∧
        ∀ e ∈ es, e.1.update? = none ∧ e.1.text? = none) ∧
      (r.1 = true → ∃ q, StockRequest.ofJson root = .ok (.ok q) ∧
        (q.sourceType = "hub" ∨ q.sourceType = "warehouse")) ∧
      (r.1 = false → IsErrorJson env.json r.2)) h := by
  unfold checkProductStock
  refine Meets.bind stockVerdict_conducts fun h' verdict hverdict => ?_
  cases verdict with
  | none => exact ⟨hverdict.1, fun _ => hverdict.2 rfl, by simp⟩
  | some r => exact ⟨hverdict.1, by simp, fun _ => ⟨_, _, _, _, rfl⟩⟩

theorem stockStage_conducts {root : Value} {s : Loop} (hbrace : beginsWithBrace buffer = true)
    (hquiet : Quiet h)
    (hvalid : s.isValid = true → Clean env h ∧ checkOrder root = .ok none)
    (hinvalid : s.isValid = false → ErrorSent env origin h) (halert : AlertOk env s) :
    Conducts env origin buffer (stockStage env origin.reply root s)
      (StageEnds env (Checked env origin root) s) h := by
  unfold stockStage
  refine Meets.bind checkProductStock_conducts ?_
  rintro _ ⟨inStock, message⟩ ⟨⟨es, rfl, hreads⟩, hin, hout⟩
  have hquiet' : Quiet (h ++ es) := fun e he =>
    (List.mem_append.1 he).elim (hquiet e) fun h => (hreads e h).1
  refine Meets.bind (Q := fun h' go => Checked env origin root h'
      { s with productStock := inStock, errorMessage := message } ∧ (go = false → Broken h'))
    (replyIf_conducts ?_ ?_ ?_) fun h' go hend => ⟨fun _ => hend.1, hend.2, rfl, halert⟩
  · intro hcond
    exact .error _ _ hbrace (hout (by simpa using hcond)) hquiet'
  · intro hcond e go he hgo
    have hstock : inStock = false := by simpa using hcond
    refine ⟨⟨hquiet'.snoc (by simp [he]), ?_, fun _ => ?_⟩, fun h => broken_of_failed (hgo h)⟩
    · intro _ h; exact absurd (hstock.symm.trans h) (by simp)
    · exact ⟨e, by simp, message, he, hout hstock⟩
  · intro hcond
    have hstock : inStock = true := by simpa using hcond
    refine ⟨⟨hquiet', fun hv _ => ⟨?_, (hvalid hv).2, hin hstock⟩, fun hr => ?_⟩, by simp⟩
    · intro e he text htext
      rcases List.mem_append.1 he with hold | hnew
      · exact (hvalid hv).1 e hold text htext
      · exact absurd ((hreads e hnew).2.symm.trans htext) (by simp)
    · rcases hr with hr | hr
      · exact (hinvalid hr).append
      · exact absurd (hstock.symm.trans hr) (by simp)

/-! ### The transfer -/

/-- An update call is answered once, and tells whether it was performed. -/
theorem Update.call_conducts {u : Update} {Q : List (Answered Server) → Int → Prop}
    (hG : ∀ o : Operation, o.update? = some u → Asks env origin buffer h o)
    (hQ : ∀ e : Answered Server, e.1.update? = some u → Q (h ++ [e]) (callResult e)) :
    Conducts env origin buffer u.call Q h := by
  obtain ⟨o, ho, hcall⟩ := u.call_eq
  rw [hcall]
  exact ⟨hG o ho, fun r _ => hQ ⟨o, r⟩ ho⟩

theorem callResult_pos {e : Answered Server} : 0 < callResult e ↔ performed e ≠ none := by
  unfold callResult
  split
  · next hp => simp [hp]
  · next hp => simp [hp]

/-- A call that was performed performed what it asked for. -/
theorem performed_of_pos {e : Answered Server} {u : Update} (hu : e.1.update? = some u)
    (hpos : 0 < callResult e) : performed e = some u := by
  obtain ⟨u', hp⟩ := Option.ne_none_iff_exists'.1 (callResult_pos.1 hpos)
  have hu' : e.1.update? = some u' := performed_update (r := e.2) hp
  rw [hp, Option.some.inj (hu.symm.trans hu')]

theorem transferFailed_snoc {e : Answered Server} {u : Update} (hu : e.1.update? = some u)
    (hof : u.OfTransfer) (hfail : ¬ 0 < callResult e) : TransferFailed (h ++ [e]) := by
  refine ⟨e, by simp, u, hu, hof, ?_⟩
  by_contra hp
  exact hfail (callResult_pos.2 hp)

/-- The transfer of an accepted order: its debit is asked for, and it returns
more than zero only when both sides were performed. -/
theorem Transfer.perform_conducts {t : Transfer} (ht : AcceptedTransfer env buffer t)
    (hquiet : Quiet h) (hclean : Clean env h) :
    Conducts env origin buffer t.perform (fun h' result =>
      (∃ d, t.debit = some d ∧ Asked h' d) ∧
        (0 < result → t.Completed h') ∧ (¬ 0 < result → TransferFailed h')) h := by
  obtain ⟨d, hd⟩ := ht.debit_some
  rw [perform_of_debit hd]
  refine Meets.bind (Update.call_conducts (Q := fun h' r => ∃ e : Answered Server,
      h' = h ++ [e] ∧ e.1.update? = some d ∧ r = callResult e)
    (fun o ho => .debit _ _ _ _ ht hd ho hquiet hclean) fun e he => ⟨e, rfl, he, rfl⟩) ?_
  rintro _ result ⟨e, rfl, he, rfl⟩
  have hasked : ∃ d, t.debit = some d ∧ Asked (h ++ [e]) d := ⟨d, hd, e, by simp, he⟩
  by_cases hpos : 0 < callResult e
  · rw [if_pos hpos]
    have hp := performed_of_pos he hpos
    cases hk : t.credit with
    | none =>
      refine ⟨hasked, fun _ => ⟨⟨d, hd, e, by simp, hp⟩, ?_⟩, fun hn => absurd hpos hn⟩
      intro k hk'
      exact absurd (hk.symm.trans hk') (by simp)
    | some k =>
      refine Update.call_conducts (fun o ho => .credit _ _ _ _ _ _ ht hd hk ho hquiet hclean hp) ?_
      intro e' he'
      refine ⟨⟨d, hd, e, by simp, he⟩, fun hpos' => ⟨⟨d, hd, e, by simp, hp⟩, ?_⟩, fun hn => ?_⟩
      · rintro k' hk'
        obtain rfl : k = k' := Option.some.inj (hk.symm.trans hk')
        exact ⟨e', by simp, performed_of_pos he' hpos'⟩
      · exact transferFailed_snoc he' (.inl (ht.credit_table hk).1) hn
  · rw [if_neg hpos]
    refine ⟨hasked, fun h => absurd h hpos, fun _ => ?_⟩
    exact transferFailed_snoc he (.inr (ht.debit_quantity hd)) hpos

theorem Asked.append {h' : List (Answered Server)} {u : Update} (ha : Asked h u) :
    Asked (h ++ h') u := by
  obtain ⟨e, he, hu⟩ := ha
  exact ⟨e, List.mem_append_left _ he, hu⟩

theorem SuccessSent.append {h' : List (Answered Server)} (hs : SuccessSent origin h) :
    SuccessSent origin (h ++ h') := by
  obtain ⟨e, he, hsend⟩ := hs
  exact ⟨e, List.mem_append_left _ he, hsend⟩

theorem TransferFailed.append {h' : List (Answered Server)} (hf : TransferFailed h) :
    TransferFailed (h ++ h') := by
  obtain ⟨e, he, hu⟩ := hf
  exact ⟨e, List.mem_append_left _ he, hu⟩

theorem Broken.append {h' : List (Answered Server)} (hb : Broken h) : Broken (h ++ h') := by
  obtain ⟨e, he, hf⟩ := hb
  exact ⟨e, List.mem_append_left _ he, hf⟩

/-- What comes after does not unsettle an order. -/
theorem Settled.append {h' : List (Answered Server)} {s : Loop}
    (hs : Settled env origin buffer h s) : Settled env origin buffer (h ++ h') s where
  accepted hv hp := by
    obtain ⟨⟨t, d, ht, hd, hasked⟩, hend⟩ := hs.accepted hv hp
    exact ⟨⟨t, d, ht, hd, hasked.append⟩, hend.imp .append .append⟩
  rejected hr := (hs.rejected hr).append

theorem realTimeUpdate_conducts {root : Value} (hbrace : beginsWithBrace buffer = true)
    (hroot : env.json.parse buffer = .ok (some root))
    (ha : Accepted root) (hquiet : Quiet h) (hclean : Clean env h) :
    Conducts env origin buffer (realTimeUpdate root) (fun h' result =>
      ∃ t, AcceptedTransfer env buffer t ∧ (∃ d, t.debit = some d ∧ Asked h' d) ∧
        (0 < result → t.Completed h') ∧ (¬ 0 < result → TransferFailed h')) h := by
  unfold realTimeUpdate
  refine Meets.bind (Meets.ofExcept (Q := fun h' t => h' = h ∧ Transfer.ofJson root = .ok t)
    fun t ht => ⟨rfl, ht⟩) ?_
  rintro h t ⟨rfl, ht⟩
  have haccepted : AcceptedTransfer env buffer t := ⟨hbrace, root, hroot, ha, ht⟩
  exact (Transfer.perform_conducts haccepted hquiet hclean).mono (fun _ _ h => h) (fun _ _ h => h)
    fun h' result hend => ⟨t, haccepted, hend⟩

theorem updateStage_conducts {root : Value} {s : Loop} (hbrace : beginsWithBrace buffer = true)
    (hroot : env.json.parse buffer = .ok (some root)) (hs : Checked env origin root h s)
    (halert : AlertOk env s) :
    Conducts env origin buffer (updateStage origin.reply root s)
      (StageEnds env (Settled env origin buffer) s) h := by
  unfold updateStage
  split
  · next hboth =>
    obtain ⟨hstock, hvalid⟩ := (Bool.and_eq_true _ _).mp hboth
    obtain ⟨hclean, haccepted⟩ := hs.accepted hvalid hstock
    have hnot : ¬ (s.isValid = false ∨ s.productStock = false) := by simp [hstock, hvalid]
    refine Meets.bind (realTimeUpdate_conducts hbrace hroot haccepted hs.quiet hclean) ?_
    rintro h₁ result ⟨t, ht, ⟨d, hd, hasked⟩, hdone, hfailed⟩
    refine Meets.bind (Q := fun h' go => Settled env origin buffer h' s ∧ (go = false → Broken h'))
      (replyIf_conducts ?_ ?_ ?_) fun h' go hend => ⟨fun _ => hend.1, hend.2, rfl, halert⟩
    · intro hpos
      exact .success _ t ht (hdone (by simpa using hpos))
    · intro _ e go he hgo
      refine ⟨⟨fun _ _ => ⟨⟨t, d, ht, hd, hasked.append⟩, .inl ⟨e, by simp, he⟩⟩,
        fun hr => absurd hr hnot⟩, fun h => broken_of_failed (hgo h)⟩
    · intro hpos
      refine ⟨⟨fun _ _ => ⟨⟨t, d, ht, hd, hasked⟩, .inr (hfailed (by simpa using hpos))⟩,
        fun hr => absurd hr hnot⟩, by simp⟩
  · next hnot =>
    refine ⟨fun _ => ⟨fun hv hp => absurd ?_ hnot, hs.rejected⟩, by simp, rfl, halert⟩
    exact (Bool.and_eq_true _ _).mpr ⟨hp, hv⟩

/-! ### The two warehouse checks -/

/-- A warehouse check leaves an alert string, and adds to the history. -/
def CheckEnds (env : Env) (h h' : List (Answered Server)) (r : Bool × String) : Prop :=
  (∃ es, h' = h ++ es) ∧ (r.2 = "" ∨ IsAlert env.json r.2)

theorem checkLowStockAlert_conducts {root : Value} {alertOut : String}
    (halert : alertOut = "" ∨ IsAlert env.json alertOut) :
    Conducts env origin buffer (checkLowStockAlert env.json root alertOut) (CheckEnds env h) h := by
  unfold checkLowStockAlert
  refine Meets.bind (Meets.ofExcept (Q := fun h' _ => h' = h) fun _ _ => rfl) ?_
  rintro h w rfl
  cases w with
  | none => exact ⟨⟨[], by simp⟩, halert⟩
  | some w =>
    refine Meets.bind (getWarehouseInventory_conducts (Q := fun h' _ => ∃ es, h' = h ++ es)
      fun rows => ⟨_, rfl⟩) fun h' stock hh' => ?_
    split
    · exact ⟨hh', halert⟩
    · split
      · exact ⟨hh', .inr ⟨_, _, _, _, rfl⟩⟩
      · exact ⟨hh', halert⟩

/-- A restock is asked for right after the stock read it is computed from. -/
theorem reStock_conducts {root : Value} {alertOut : String}
    (halert : alertOut = "" ∨ IsAlert env.json alertOut) :
    Conducts env origin buffer (reStock env.json root alertOut) (CheckEnds env h) h := by
  unfold reStock
  refine Meets.bind (Meets.ofExcept (Q := fun h' _ => h' = h) fun _ _ => rfl) ?_
  rintro h w rfl
  cases w with
  | none => exact ⟨⟨[], by simp⟩, halert⟩
  | some w =>
    refine Meets.bind (getWarehouseInventory_conducts (Q := fun h' stock => ∃ rows,
      h' = h ++ [⟨.getWarehouseInventory w.productName w.warehouseId, rows⟩] ∧
        stock = readStock rows) fun rows => ⟨rows, rfl, rfl⟩) ?_
    rintro _ stock ⟨rows, rfl, rfl⟩
    split
    · exact ⟨⟨_, rfl⟩, halert⟩
    · next herror =>
      split
      · next hlow =>
        refine Meets.bind (updateWarehouseInventory_conducts (Q := fun h' _ => ∃ es, h' = h ++ es)
          (.restock _ _ _ rows herror hlow) fun n => ⟨_, List.append_assoc _ _ _⟩)
          fun h' result hh' => ?_
        split
        · exact ⟨hh', .inr ⟨_, _, _, _, rfl⟩⟩
        · exact ⟨hh', halert⟩
      · exact ⟨⟨_, rfl⟩, halert⟩

/-- A warehouse check and its alert keep the order settled. -/
theorem alertStage_conducts {check : Handling (Bool × String)} (after : Bool → String → Loop)
    {s : Loop} (hcheck : Conducts env origin buffer check (CheckEnds env h) h)
    (hafter : ∀ b a, (after b a).isValid = s.isValid ∧ (after b a).productStock = s.productStock ∧
      (after b a).clientId = s.clientId ∧ (after b a).alertOut = a)
    (hs : Settled env origin buffer h s) :
    Conducts env origin buffer (check >>= fun r =>
        replyIf origin.reply r.1 r.2 >>= fun go => Program.pure (after r.1 r.2, go))
      (StageEnds env (Settled env origin buffer) s) h := by
  refine Meets.bind hcheck ?_
  rintro _ ⟨b, a⟩ ⟨⟨es, rfl⟩, ha⟩
  obtain ⟨hv, hp, hid, haout⟩ := hafter b a
  have hsettled : ∀ h', Settled env origin buffer (h ++ h') (after b a) := fun h' =>
    ⟨fun h₁ h₂ => hs.append.accepted (hv ▸ h₁) (hp ▸ h₂),
      fun hr => hs.append.rejected (by rwa [hv, hp] at hr)⟩
  refine Meets.bind (Q := fun h' go => (∃ es, h' = h ++ es) ∧ (go = false → Broken h'))
    (replyIf_conducts (fun _ => .alert _ _ ha) ?_ fun _ => ⟨⟨es, rfl⟩, by simp⟩) ?_
  · intro _ e go _ hgo
    exact ⟨⟨_, List.append_assoc _ _ _⟩, fun h => broken_of_failed (hgo h)⟩
  · rintro _ go ⟨⟨es', rfl⟩, hstop⟩
    refine ⟨fun _ => hsettled es', hstop, hid, ?_⟩
    unfold AlertOk
    rwa [haout]

theorem lowStockStage_conducts {root : Value} {s : Loop} (hs : Settled env origin buffer h s)
    (halert : AlertOk env s) :
    Conducts env origin buffer (lowStockStage env origin.reply root s)
      (StageEnds env (Settled env origin buffer) s) h :=
  alertStage_conducts (fun b a => { s with lowStock := b, alertOut := a })
    (checkLowStockAlert_conducts halert) (fun _ _ => ⟨rfl, rfl, rfl, rfl⟩) hs

theorem reStockStage_conducts {root : Value} {s : Loop} (hs : Settled env origin buffer h s)
    (halert : AlertOk env s) :
    Conducts env origin buffer (reStockStage env origin.reply root s)
      (StageEnds env (Settled env origin buffer) s) h :=
  alertStage_conducts (fun b a => { s with reStocked := b, alertOut := a })
    (reStock_conducts halert) (fun _ _ => ⟨rfl, rfl, rfl, rfl⟩) hs

/-! ### All stages -/

/-- What a handler does with a parsed order. -/
theorem orderStages_conducts {root : Value} {s : Loop} (hbrace : beginsWithBrace buffer = true)
    (hroot : env.json.parse buffer = .ok (some root)) (hquiet : Quiet h) (hclean : Clean env h)
    (halert : AlertOk env s) :
    Conducts env origin buffer (orderStages env origin.reply root s)
      (StageEnds env (Settled env origin buffer) s) h := by
  unfold orderStages
  refine stages_conducts (validateStage_conducts hbrace hquiet hclean halert) ?_
  rintro h₁ s₁ ⟨hquiet₁, hvalid, hinvalid⟩ halert₁
  refine stages_conducts (stockStage_conducts hbrace hquiet₁ hvalid hinvalid halert₁) ?_
  intro h₂ s₂ hchecked halert₂
  refine stages_conducts (updateStage_conducts hbrace hroot hchecked halert₂) ?_
  intro h₃ s₃ hsettled halert₃
  refine stages_conducts (lowStockStage_conducts hsettled halert₃) ?_
  intro h₄ s₄ hsettled₄ halert₄
  refine stages_conducts (reStockStage_conducts hsettled₄ halert₄) ?_
  intro h₅ s₅ hsettled₅ halert₅
  exact ⟨fun _ => hsettled₅, by simp, rfl, halert₅⟩

/-! ## One message -/

/-- Some order with this text was accepted and debited. -/
def Debited (env : Env) (buffer : String) (h : List (Answered Server)) : Prop :=
  ∃ t d, AcceptedTransfer env buffer t ∧ t.debit = some d ∧ Asked h d

/-- After the first branch of an iteration. -/
structure BranchEnds (env : Env) (origin : Origin) (buffer : String) (s : Loop)
    (h : List (Answered Server)) (r : Loop × Bool) : Prop where
  clientId : r.1.clientId = s.clientId
  alert : AlertOk env r.1
  goes : r.2 = true → beginsWithBrace buffer = true → Settled env origin buffer h r.1
  stops : r.2 = false → Broken h ∨ env.json.parse buffer = .ok none

theorem handleOrder_conducts {s : Loop} (hbrace : beginsWithBrace buffer = true)
    (hquiet : Quiet h) (hclean : Clean env h) (halert : AlertOk env s) :
    Conducts env origin buffer (handleOrder env origin.reply buffer s)
      (BranchEnds env origin buffer s) h := by
  unfold handleOrder
  refine Meets.bind (ask_conducts (.storeOrder _) (Q := fun h' _ => Quiet h' ∧ Clean env h')
    fun r => ⟨hquiet.snoc rfl, hclean.snoc (by simp [Operation.text?])⟩) ?_
  rintro h₁ stored ⟨hquiet₁, hclean₁⟩
  refine Meets.bind (Meets.ofExcept (Q := fun h' _ => h' = h₁) fun _ _ => rfl) ?_
  rintro h₁ _ rfl
  refine Meets.bind (Meets.ofExcept (Q := fun h' v => h' = h₁ ∧ env.json.parse buffer = .ok v)
    fun v hv => ⟨rfl, hv⟩) ?_
  rintro h₁ v ⟨rfl, hparse⟩
  cases v with
  | none => exact ⟨rfl, halert, by simp, fun _ => .inr hparse⟩
  | some root =>
    refine (orderStages_conducts hbrace hparse hquiet₁ hclean₁ halert).mono (fun _ _ h => h)
      (fun _ _ h => h) ?_
    rintro h' r ⟨hgo, hstop, hid, halert'⟩
    exact ⟨hid, halert', fun h _ => hgo h, fun h => .inl (hstop h)⟩

theorem orderBranch_conducts {s : Loop} (hquiet : Quiet h) (hclean : Clean env h)
    (halert : AlertOk env s) :
    Conducts env origin buffer (orderBranch env origin.reply buffer s)
      (BranchEnds env origin buffer s) h := by
  unfold orderBranch
  split
  · next hbrace => exact handleOrder_conducts hbrace hquiet hclean halert
  · next hbrace => exact ⟨rfl, halert, fun _ h => absurd h hbrace, by simp⟩

/-- A forward looks up its target and sends to it, or not at all. -/
theorem forwardMessageToClient_conducts {message protocol : String} {clientId : Int}
    (hclean : beginsWithBrace message = false)
    (hmessage : beginsWithBrace buffer = true → IsForward message ∧ Debited env buffer h) :
    Conducts env origin buffer (forwardMessageToClient message clientId protocol)
      (fun h' _ => ∃ es, h' = h ++ es) h := by
  unfold forwardMessageToClient
  refine Meets.bind (ask_conducts (.findClientById _ _ _) (Q := fun h' _ => ∃ e, h' = h ++ [e])
    fun r => ⟨_, rfl⟩) ?_
  rintro _ target ⟨e, rfl⟩
  have hmessage' : beginsWithBrace buffer = true → IsForward message ∧
      ∃ t d, AcceptedTransfer env buffer t ∧ t.debit = some d ∧ Asked (h ++ [e]) d := fun hb => by
    obtain ⟨hf, t, d, ht, hd, ha⟩ := hmessage hb
    exact ⟨hf, t, d, ht, hd, ha.append⟩
  cases target with
  | none => exact ⟨_, rfl⟩
  | some info =>
    simp only
    split
    · exact Meets.bind (ask_conducts (.forward _ info _ _ (.inl rfl) hclean hmessage')
        (Q := fun h' _ => ∃ es, h' = h ++ es) fun r => ⟨_, List.append_assoc _ _ _⟩)
        fun h' _ hh' => hh'
    · split
      · exact Meets.bind (ask_conducts (.forward _ info _ _ (.inr rfl) hclean hmessage')
          (Q := fun h' _ => ∃ es, h' = h ++ es) fun r => ⟨_, List.append_assoc _ _ _⟩)
          fun h' _ hh' => hh'
      · exact ⟨_, rfl⟩

theorem Forward.ofGeneralInfo_ok {v : Value} {f : Forward}
    (h : Forward.ofGeneralInfo v = .ok f) : IsForward f.message := by
  unfold Forward.ofGeneralInfo at h
  repeat obtain ⟨_, _, h⟩ := Except.seq_ok h
  cases h
  exact ⟨_, _, _, rfl⟩

theorem Forward.ofText_ok {json : JsonCpp} {msg : String} {f : Forward}
    (h : Forward.ofText json msg = .ok (some f)) : IsForward f.message := by
  obtain ⟨v, _, h⟩ := Except.seq_ok h
  cases v with
  | none => cases h
  | some root =>
    obtain ⟨hasInfo, _, h⟩ := Except.seq_ok h
    cases hasInfo with
    | false => cases h
    | true =>
      obtain ⟨info, _, h⟩ := Except.seq_ok h
      obtain ⟨f', hf, h⟩ := Except.seq_ok h
      cases h
      exact Forward.ofGeneralInfo_ok hf

/-- A message with a brace is no command. -/
theorem not_command_of_brace (hb : beginsWithBrace buffer = true) :
    buffer ≠ "LIST_CLIENTS" ∧ buffer ≠ "SHOW_REPORT" :=
  ⟨by rintro rfl; exact absurd hb (by decide), by rintro rfl; exact absurd hb (by decide)⟩

theorem reportText_no_brace (totals : List (String × Int)) :
    beginsWithBrace (reportText totals) = false := by
  unfold reportText
  split
  · decide +kernel
  · have hhead : "\n----- Product Quantity Report -----\n".toList.head? = some '\n' := by
      decide +kernel
    exact no_brace_of_head (head_append (head_append hhead _) _) (by decide)

theorem listingText_no_brace (udp tcp : ClientMap) :
    beginsWithBrace ("\n----- Connected Clients -----\n" ++ clientLines "UDP Clients: " udp ++
      clientLines "TCP Clients: " tcp ++ "----------------------------") = false := by
  have hhead : "\n----- Connected Clients -----\n".toList.head? = some '\n' := by decide +kernel
  exact no_brace_of_head (head_append (head_append (head_append hhead _) _) _) (by decide)

theorem processMessage_conducts {protocol : String} {clientId : Int}
    (hdebited : beginsWithBrace buffer = true → Debited env buffer h) :
    Conducts env origin buffer (processMessage env.json buffer protocol clientId)
      (fun h' _ => ∃ es, h' = h ++ es) h := by
  unfold processMessage
  split
  · next hlist =>
    refine Meets.bind (ask_conducts (.clientMapUdp _) (Q := fun h' _ => ∃ e, h' = h ++ [e])
      fun r => ⟨_, rfl⟩) ?_
    rintro _ clientMapUdp ⟨e, rfl⟩
    refine Meets.bind (ask_conducts (.clientMapTcp _) (Q := fun h' _ => ∃ es, h' = h ++ es)
      fun r => ⟨_, List.append_assoc _ _ _⟩) ?_
    rintro _ clientMapTcp ⟨es, rfl⟩
    refine (forwardMessageToClient_conducts (listingText_no_brace _ _) fun hb =>
      absurd hlist (not_command_of_brace hb).1).mono (fun _ _ h => h) (fun _ _ h => h) ?_
    rintro _ _ ⟨es, rfl⟩
    exact ⟨_, List.append_assoc _ _ _⟩
  · split
    · next hreport =>
      refine Meets.bind (ask_conducts (.productQuantities _) (Q := fun h' _ => ∃ e, h' = h ++ [e])
        fun r => ⟨_, rfl⟩) ?_
      rintro _ totals ⟨e, rfl⟩
      refine (forwardMessageToClient_conducts (reportText_no_brace _) fun hb =>
        absurd hreport (not_command_of_brace hb).2).mono (fun _ _ h => h) (fun _ _ h => h) ?_
      rintro _ _ ⟨es, rfl⟩
      exact ⟨_, List.append_assoc _ _ _⟩
    · refine Meets.bind (Meets.ofExcept (Q := fun h' f => h' = h ∧
        Forward.ofText env.json buffer = .ok f) fun f hf => ⟨rfl, hf⟩) ?_
      rintro h f ⟨rfl, hf⟩
      cases f with
      | none => exact ⟨[], by simp⟩
      | some f =>
        exact forwardMessageToClient_conducts
          (no_brace_of_head (Forward.ofText_ok hf).head (by decide))
          fun hb => ⟨Forward.ofText_ok hf, hdebited hb⟩

/-- At the end of an iteration. An order that parsed was settled, unless a
send failed; a TCP handler keeps its client id. -/
structure IterationEnds (env : Env) (origin : Origin) (buffer : String) (s : Loop)
    (h : List (Answered Server)) (s' : Loop) : Prop where
  alert : AlertOk env s'
  clientId : ∀ fd, origin = .tcp fd → s'.clientId = s.clientId
  settled : beginsWithBrace buffer = true → ∀ root, env.json.parse buffer = .ok (some root) →
    Broken h ∨ Settled env origin buffer h s'

theorem handleMessage_conducts {protocol : String} {s : Loop} (hquiet : Quiet h)
    (hclean : Clean env h) (halert : AlertOk env s) :
    Conducts env origin buffer (handleMessage env origin.reply protocol buffer s)
      (IterationEnds env origin buffer s) h := by
  unfold handleMessage
  refine Meets.bind (orderBranch_conducts hquiet hclean halert) ?_
  rintro h₁ ⟨s₁, go⟩ ⟨hid, halert₁, hgoes, hstops⟩
  have hsettled : ∀ es, beginsWithBrace buffer = true → ∀ root,
      env.json.parse buffer = .ok (some root) →
        Broken (h₁ ++ es) ∨ Settled env origin buffer (h₁ ++ es) s₁ := by
    intro es hb root hroot
    cases go with
    | true => exact .inr (hgoes rfl hb).append
    | false =>
      rcases hstops rfl with hbroken | hnone
      · exact .inl hbroken.append
      · cases hroot.symm.trans hnone
  simp only
  split
  · next hall =>
    simp only [Bool.and_eq_true] at hall
    obtain ⟨⟨rfl, hv⟩, hp⟩ := hall
    refine Meets.bind (processMessage_conducts fun hb => ((hgoes rfl hb).accepted hv hp).1) ?_
    rintro _ _ ⟨es, rfl⟩
    exact ⟨halert₁, fun _ _ => hid, hsettled es⟩
  · exact ⟨halert₁, fun _ _ => hid, by simpa using hsettled []⟩

/-- A message with a brace does not begin with a number. -/
theorem atoi_of_brace (hb : beginsWithBrace buffer = true) : atoi buffer = 0 := by
  unfold beginsWithBrace at hb
  obtain ⟨cs, hcs⟩ : ∃ cs, buffer.toList = '{' :: cs := by
    cases hl : buffer.toList with
    | nil => simp [hl] at hb
    | cons c cs => simp [hl] at hb; exact ⟨cs, by rw [hb]⟩
  unfold atoi decimalPrefix
  rw [hcs]
  rfl

theorem acknowledge_conducts (origin : Origin) {text : String}
    (htext : text = "UDP Server received your message." ∨
      text = "TCP Server received your message.") (hquiet : Quiet h) (hclean : Clean env h) :
    Conducts env origin buffer (origin.reply text)
      (fun h' go => Quiet h' ∧ Clean env h' ∧ (go = false → Broken h')) h := by
  refine reply_conducts (.acknowledge _ _ htext) fun e go he hgo =>
    ⟨hquiet.snoc (by simp [he]), hclean.snoc fun text' htext' => ?_, fun h =>
      broken_of_failed (hgo h)⟩
  rw [he, Origin.send_text] at htext'
  cases htext'
  rcases htext with rfl | rfl <;> exact not_errorJson (by decide)

theorem handleUdpClients_conducts {cliAddr : SockAddr} {s : Loop} (halert : AlertOk env s) :
    Conducts env (.udp cliAddr) buffer (handleUdpClients env cliAddr buffer s)
      (IterationEnds env (.udp cliAddr) buffer s) [] := by
  unfold handleUdpClients
  refine Meets.bind (ask_conducts (.udpRegistered _) (Q := fun h' _ => Quiet h' ∧ Clean env h')
    fun r => ⟨by simp [Quiet, Operation.update?], by simp [Clean, Operation.text?]⟩) ?_
  rintro h₁ registered ⟨hquiet, hclean⟩
  split
  · next hnew =>
    refine Meets.bind (ask_conducts (.registerClient _ cliAddr rfl) (Q := fun _ _ => True)
      fun _ => trivial) fun h' clientId _ => ⟨halert, by simp, fun hb => ?_⟩
    simp [atoi_of_brace hb] at hnew
  · refine Meets.bind (acknowledge_conducts (.udp cliAddr) (.inl rfl) hquiet hclean) ?_
    rintro h₂ _ ⟨hquiet₂, hclean₂, _⟩
    exact handleMessage_conducts hquiet₂ hclean₂ halert

theorem handleTcpClient_conducts {fd : Int} {s : Loop} (halert : AlertOk env s) :
    Conducts env (.tcp fd) buffer (handleTcpClient env fd buffer s)
      (IterationEnds env (.tcp fd) buffer s) [] := by
  unfold handleTcpClient
  refine Meets.bind (acknowledge_conducts (.tcp fd) (.inr rfl) (by simp [Quiet])
    (by simp [Clean])) ?_
  rintro h₁ written ⟨hquiet, hclean, hbroken⟩
  split
  · exact handleMessage_conducts hquiet hclean halert
  · next hw => exact ⟨halert, fun _ _ => rfl, fun _ _ _ => .inl (hbroken (by simpa using hw))⟩

/-- **The contract of an iteration**, of either handler, on any message, from
any loop variables with an alert string that is one. -/
theorem iteration_conducts {s : Loop} (halert : AlertOk env s) :
    Conducts env origin buffer (iteration env origin buffer s)
      (IterationEnds env origin buffer s) [] := by
  cases origin with
  | udp cliAddr => exact handleUdpClients_conducts halert
  | tcp clientSockfd => exact handleTcpClient_conducts halert

end

end LogisticService
