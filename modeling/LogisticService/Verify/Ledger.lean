import LogisticService.Server.Journal
import LogisticService.Server.Observing
import LogisticService.Verify.Conservation
import LogisticService.Verify.Outcome
import Mathlib.Data.List.Induction

/-!
# The stock ledger of a run

An order moves stock in two calls, and any number of orders are under way at
once. Whatever the interleaving, the units in the tables are the initial ones,
with what the restocks added, less what was handed to external clients and
what has left a source for a hub and not arrived (`stock_accounted`). The
last part is on its way or lost: the credit of an order is asked for right
after its debit (`iteration_prompt`), so when every handler is idle and no
update of an order has failed, there is none.
-/

namespace LogisticService

open Effects Program

/-! ## What an order has moved so far -/

/-- The transfer of a positive quantity that a message asks for. -/
def orderTransfer (env : Env) (buffer : String) : Option Transfer :=
  match env.json.parse buffer with
  | .ok (some root) => (Transfer.ofJson root).toOption.filter fun t => 0 < t.quantity
  | _ => none

/-- The update was performed. -/
def did (h : List (Answered Server)) (u : Update) : Bool := h.any fun e => performed e = some u

/-- What an operation added to the tables. -/
def gained (e : Answered Server) : Int := (performed e).elim 0 Update.quantity

instance (u : Update) : Decidable u.OfTransfer := inferInstanceAs (Decidable (_ ∨ _))

/-- What a restock added to a warehouse. -/
def restocked (e : Answered Server) : Int :=
  (performed e).elim 0 fun u => if u.OfTransfer then 0 else u.quantity

namespace Transfer

/-- The units handed to an external client. -/
def shipped (t : Transfer) (h : List (Answered Server)) : Int :=
  if t.debit.any (did h) && t.credit.isNone then t.quantity else 0

/-- The units taken from the source that no hub has received. -/
def unplaced (t : Transfer) (h : List (Answered Server)) : Int :=
  if t.debit.any (did h) && t.credit.any (fun k => !did h k) then t.quantity else 0

end Transfer

section

variable {env : Env} {origin : Origin} {buffer : String} {h : List (Answered Server)}
  {e : Answered Server} {t : Transfer} {u d k : Update}

theorem orderTransfer_of_accepted (ht : AcceptedTransfer env buffer t) :
    orderTransfer env buffer = some t := by
  obtain ⟨root, hparse, _, hof⟩ := ht.order
  unfold orderTransfer
  rw [hparse]
  dsimp only
  rw [hof]
  simp [Except.toOption, ht.positive]

theorem orderTransfer_positive (ht : orderTransfer env buffer = some t) : 0 < t.quantity := by
  unfold orderTransfer at ht
  split at ht
  · simpa using (Option.filter_eq_some_iff.1 ht).2
  · cases ht

theorem did_snoc : did (h ++ [e]) u = (did h u || decide (performed e = some u)) := by
  unfold did
  rw [List.any_append, List.any_cons, List.any_nil, Bool.or_false]

theorem did_of_quiet (hquiet : Quiet h) : did h u = false := by
  unfold did
  rw [List.any_eq_false]
  intro e he hp
  have hu := performed_update (r := e.2) (of_decide_eq_true hp)
  exact absurd ((hquiet e he).symm.trans hu) (by simp)

theorem did_snoc_of_ne (hne : performed e ≠ some u) : did (h ++ [e]) u = did h u := by
  rw [did_snoc, decide_eq_false hne, Bool.or_false]

/-- The debit of an order lowers a quantity. -/
theorem Transfer.debit_negative (hpos : 0 < t.quantity) (hd : t.debit = some d) :
    d.quantity < 0 := by
  have := (Update.ofType_some hd).2.2.1
  omega

/-- Nothing has moved before the debit was performed. -/
theorem Transfer.unmoved (hdid : ∀ d, t.debit = some d → did h d = false) :
    t.shipped h = 0 ∧ t.unplaced h = 0 := by
  have hnot : t.debit.any (did h) = false := by
    cases hd : t.debit with
    | none => rfl
    | some d => exact hdid d hd
  simp [shipped, unplaced, hnot]

theorem Transfer.shipped_nonneg (hpos : 0 < t.quantity) : 0 ≤ t.shipped h := by
  unfold shipped
  split <;> omega

theorem Transfer.unplaced_nonneg (hpos : 0 < t.quantity) : 0 ≤ t.unplaced h := by
  unfold unplaced
  split <;> omega

/-- Only an accepted order has its debit performed. -/
theorem accepted_of_did (hk : Kept (Asks env origin buffer) h)
    (ht : orderTransfer env buffer = some t) (hd : t.debit = some d) (hdid : did h d = true) :
    AcceptedTransfer env buffer t := by
  obtain ⟨e, he, hp⟩ := List.any_eq_true.1 hdid
  have hu := performed_update (r := e.2) (of_decide_eq_true hp)
  have hneg := Transfer.debit_negative (orderTransfer_positive ht) hd
  obtain ⟨h₁, h₂, rfl⟩ := List.append_of_mem he
  obtain ⟨t', _, ht', _⟩ := (hk h₁ e h₂ rfl).transfer_inv hu (.inr hneg)
  cases ht.symm.trans (orderTransfer_of_accepted ht')
  exact ht'

/-- One more operation that is no update of a transfer. -/
theorem moved_snoc_of_restock (hk : Kept (Asks env origin buffer) h)
    (ht : orderTransfer env buffer = some t)
    (hrestock : ∀ u, performed e = some u → ¬ u.OfTransfer) :
    t.shipped (h ++ [e]) = t.shipped h ∧ t.unplaced (h ++ [e]) = t.unplaced h := by
  have hsame : ∀ u : Update, u.OfTransfer → did (h ++ [e]) u = did h u := fun u hu =>
    did_snoc_of_ne fun hp => hrestock u hp hu
  cases hd : t.debit with
  | none => simp [Transfer.shipped, Transfer.unplaced, hd]
  | some d =>
    have hneg := Transfer.debit_negative (orderTransfer_positive ht) hd
    have hdebit := hsame d (.inr hneg)
    cases hdid : did h d with
    | false =>
      have hdid' := hdebit.trans hdid
      simp [Transfer.shipped, Transfer.unplaced, hd, hdid, hdid']
    | true =>
      have hacc := accepted_of_did hk ht hd hdid
      cases hc : t.credit with
      | none => simp [Transfer.shipped, Transfer.unplaced, hd, hc, hdebit]
      | some k =>
        have hcredit := hsame k (.inl (hacc.credit_table hc).1)
        simp [Transfer.shipped, Transfer.unplaced, hd, hc, hdebit, hcredit]

/-- The debit moves the order's quantity out of the tables. -/
theorem moved_debit (ht : AcceptedTransfer env buffer t) (hd : t.debit = some d) (hquiet : Quiet h)
    (hp : performed e = some d) :
    t.shipped (h ++ [e]) + t.unplaced (h ++ [e]) = t.quantity := by
  have hdid : did (h ++ [e]) d = true := by rw [did_snoc, decide_eq_true hp, Bool.or_true]
  cases hc : t.credit with
  | none => simp [Transfer.shipped, Transfer.unplaced, hd, hc, hdid]
  | some k =>
    have hnot : did (h ++ [e]) k = false := by
      refine (did_snoc_of_ne fun hk => ?_).trans (did_of_quiet hquiet)
      exact ht.debit_ne_credit hd hc (Option.some.inj (hp.symm.trans hk))
    simp [Transfer.shipped, Transfer.unplaced, hd, hc, hdid, hnot]

/-- The credit brings it back in. -/
theorem moved_credit (ht : AcceptedTransfer env buffer t) (hd : t.debit = some d)
    (hc : t.credit = some k) (hquiet : Quiet h) {e' : Answered Server} (hp : performed e = some d)
    (hp' : performed e' = some k) :
    t.shipped (h ++ [e]) + t.unplaced (h ++ [e]) = t.quantity ∧
      t.shipped (h ++ [e] ++ [e']) = 0 ∧ t.unplaced (h ++ [e] ++ [e']) = 0 := by
  have hdid : did (h ++ [e] ++ [e']) k = true := by rw [did_snoc, decide_eq_true hp', Bool.or_true]
  have hreceived : t.credit.any (fun k => !did (h ++ [e] ++ [e']) k) = false := by
    rw [hc, Option.any_some, hdid]
    rfl
  refine ⟨moved_debit ht hd hquiet hp, ?_, ?_⟩
  · simp [Transfer.shipped, hc]
  · rw [Transfer.unplaced, hreceived, Bool.and_false]
    rfl

end

/-! ## The balance of a message -/

/-- The units a message has handed to an external client. -/
def shipped (env : Env) (buffer : String) (h : List (Answered Server)) : Int :=
  (orderTransfer env buffer).elim 0 (·.shipped h)

/-- The units a message has taken from a source for a hub that has not received them. -/
def unplaced (env : Env) (buffer : String) (h : List (Answered Server)) : Int :=
  (orderTransfer env buffer).elim 0 (·.unplaced h)

section

variable {env : Env} {origin : Origin} {buffer : String} {h : List (Answered Server)}

/-- **What a message added to the tables** is what it restocked, less what it
shipped and has not placed. -/
theorem Kept.balance (hk : Kept (Asks env origin buffer) h) : (h.map gained).sum =
    (h.map restocked).sum - shipped env buffer h - unplaced env buffer h := by
  induction h using List.reverseRecOn with
  | nil =>
    have hnone : ∀ t : Transfer, t.shipped [] = 0 ∧ t.unplaced [] = 0 := fun t =>
      Transfer.unmoved fun _ _ => rfl
    unfold shipped unplaced
    cases orderTransfer env buffer with
    | none => rfl
    | some t => simp [hnone t]
  | append_singleton h e ih =>
    obtain ⟨hkept, hasks⟩ := hk.of_snoc
    have hold := ih hkept
    rw [List.map_append, List.map_append, List.sum_append, List.sum_append, hold]
    simp only [List.map_cons, List.map_nil, List.sum_cons, List.sum_nil, Int.add_zero]
    by_cases htransfer : ∃ u, performed e = some u ∧ u.OfTransfer
    · obtain ⟨u, hp, hof⟩ := htransfer
      have hgained : gained e = u.quantity := by rw [gained, hp]; rfl
      have hrestocked : restocked e = 0 := by rw [restocked, hp]; exact if_pos hof
      obtain ⟨t, d, ht, hd, ⟨rfl, hquiet, _⟩ | ⟨hc, h₀, e', rfl, hquiet, _, hp'⟩⟩ :=
        hasks.transfer_inv (performed_update (r := e.2) hp) hof
      · have hbefore := Transfer.unmoved (t := t) fun d _ => did_of_quiet (u := d) hquiet
        have hafter := moved_debit ht hd hquiet hp
        have hq := (Update.ofType_some hd).2.2.1
        simp only [shipped, unplaced, orderTransfer_of_accepted ht, Option.elim_some]
        omega
      · obtain ⟨hbefore, hafter, hafter'⟩ := moved_credit ht hd hc hquiet hp' hp
        have hq := (Update.ofType_some hc).2.2.1
        simp only [shipped, unplaced, orderTransfer_of_accepted ht, Option.elim_some]
        omega
    · have hrestock : ∀ u, performed e = some u → ¬ u.OfTransfer := fun u hp hof =>
        htransfer ⟨u, hp, hof⟩
      have hsame : gained e = restocked e := by
        unfold gained restocked
        cases hp : performed e with
        | none => rfl
        | some u => exact (if_neg (hrestock u hp)).symm
      unfold shipped unplaced
      cases ht : orderTransfer env buffer with
      | none => simp only [Option.elim_none]; omega
      | some t =>
        obtain ⟨hshipped, hunplaced⟩ := moved_snoc_of_restock hkept ht hrestock
        simp only [Option.elim_some]
        omega

end

/-! ## The credit comes right after the debit -/

/-- The debit of an order was just performed, and this is its credit. -/
def Due (env : Env) (buffer : String) (h : List (Answered Server)) (k : Update) : Prop :=
  ∃ h₀ e t d, h = h₀ ++ [e] ∧ AcceptedTransfer env buffer t ∧ t.debit = some d ∧
    performed e = some d ∧ t.credit = some k

/-- The operation lowers no quantity. -/
def Operation.Raises (o : Operation) : Prop := ∀ u, o.update? = some u → 0 ≤ u.quantity

/-- A part of a handler asks for a credit that is due before anything else,
and leaves none due. -/
abbrev Pays (env : Env) (buffer : String) {α : Type} (p : Handling α)
    (h : List (Answered Server)) : Prop :=
  p.Meets (fun _ _ => True) (fun h o => ∀ k, Due env buffer h k → o.update? = some k)
    (fun h _ => ∀ k, ¬ Due env buffer h k) h

section

variable {env : Env} {origin : Origin} {buffer : String} {h : List (Answered Server)}
  {root : Value}

theorem Due.snoc {e : Answered Server} {k : Update} (hdue : Due env buffer (h ++ [e]) k) :
    ∃ t d, AcceptedTransfer env buffer t ∧ t.debit = some d ∧ performed e = some d ∧
      t.credit = some k := by
  obtain ⟨h₀, e', t, d, heq, ht, hd, hp, hk⟩ := hdue
  obtain ⟨_, hlast⟩ := List.append_inj' heq rfl
  cases hlast
  exact ⟨t, d, ht, hd, hp, hk⟩

/-- Only a debit makes a credit due. -/
theorem not_due_of_raises {o : Operation} {r : o.Reply} (ho : o.Raises) (k : Update) :
    ¬ Due env buffer (h ++ [⟨o, r⟩]) k := by
  intro hdue
  obtain ⟨t, d, ht, hd, hp, _⟩ := hdue.snoc
  have hneg := ht.debit_quantity hd
  have hpos := ho d (performed_update hp)
  omega

theorem Operation.Passive.raises {o : Operation} (ho : o.Passive) : o.Raises := by
  intro u hu
  cases o with
  | updateHubInventory | updateWarehouseInventory => exact ho.elim
  | _ => cases hu

theorem Operation.Restocks.raises {o : Operation} (ho : o.Restocks) : o.Raises := by
  intro u hu
  cases o with
  | updateWarehouseInventory => cases hu; exact ho
  | updateHubInventory => exact ho.elim
  | _ => cases hu

/-- A part that lowers no quantity. -/
theorem prompt_of_raises {α : Type} {p : Handling α} (hp : p.Only Operation.Raises)
    (hh : ∀ k, ¬ Due env buffer h k) : Pays env buffer p h :=
  hp.meets (fun _ _ hnot _ k hdue => absurd hdue (hnot k))
    (fun _ _ _ _ ho k => not_due_of_raises ho k) hh

theorem prompt_of_observes {α : Type} {p : Handling α} (hp : Observes p)
    (hh : ∀ k, ¬ Due env buffer h k) : Pays env buffer p h :=
  prompt_of_raises (hp.mono fun _ => Operation.Passive.raises) hh

theorem AcceptedTransfer.eq_of_root {t t' : Transfer} (h : AcceptedTransfer env buffer t')
    (hroot : env.json.parse buffer = .ok (some root)) (ht : Transfer.ofJson root = .ok t) :
    t' = t := by
  obtain ⟨root', hparse, _, ht'⟩ := h.order
  cases hroot.symm.trans hparse
  exact Except.ok.inj (ht'.symm.trans ht)

/-- The transfer itself. -/
theorem Transfer.perform_prompt {t : Transfer} (hroot : env.json.parse buffer = .ok (some root))
    (ht : Transfer.ofJson root = .ok t) (hh : ∀ k, ¬ Due env buffer h k) :
    Pays env buffer t.perform h := by
  cases hd : t.debit with
  | none =>
    rw [perform_of_no_debit hd]
    exact hh
  | some d =>
    rw [perform_of_debit hd]
    obtain ⟨o, ho, hcall⟩ := d.call_eq
    rw [hcall]
    refine ⟨fun k hdue => absurd hdue (hh k), fun r _ => ?_⟩
    show Pays env buffer (if callResult ⟨o, r⟩ > 0 then _ else _) _
    split
    · next hpos =>
      cases hc : t.credit with
      | none =>
        intro k hdue
        obtain ⟨t', _, ht', _, _, hk⟩ := hdue.snoc
        rw [ht'.eq_of_root hroot ht, hc] at hk
        cases hk
      | some k =>
        obtain ⟨o', ho', hcall'⟩ := k.call_eq
        dsimp only
        rw [hcall']
        refine ⟨fun k' hdue => ?_, fun r' _ k' hdue => ?_⟩
        · obtain ⟨t', _, ht', _, _, hk⟩ := hdue.snoc
          rw [ht'.eq_of_root hroot ht, hc] at hk
          rw [ho', hk]
        · obtain ⟨t', d', ht', hd', hp, _⟩ := hdue.snoc
          have hu : some k = some d' := ho'.symm.trans (performed_update hp)
          have hc' := ht'.eq_of_root hroot ht ▸ hc
          exact ht'.debit_ne_credit hd' hc' (Option.some.inj hu).symm
    · next hneg =>
      intro k hdue
      obtain ⟨_, d', _, _, hp, _⟩ := hdue.snoc
      exact hneg (callResult_pos.2 (by rw [hp]; simp))

/-! ### The stages -/

/-- A reply and the loop variables after it. -/
theorem replied_raises {condition : Bool} {text : String} {s : Loop} :
    (replyIf origin.reply condition text >>= fun go =>
      (Program.pure (s, go) : Handling (Loop × Bool))).Only Operation.Raises :=
  replied_delivers.mono fun _ h => Operation.Passive.raises h.passive

theorem updateStage_prompt {s : Loop} (hroot : env.json.parse buffer = .ok (some root))
    (hh : ∀ k, ¬ Due env buffer h k) :
    Pays env buffer (updateStage origin.reply root s) h := by
  unfold updateStage
  split
  · refine Meets.bind (Q := fun h _ => ∀ k, ¬ Due env buffer h k) ?_ fun h' result hh' =>
      prompt_of_raises replied_raises hh'
    unfold realTimeUpdate
    exact Meets.bind (Meets.ofExcept (Q := fun h' t => (∀ k, ¬ Due env buffer h' k) ∧
      Transfer.ofJson root = .ok t) fun t ht => ⟨hh, ht⟩) fun h' t ht =>
        Transfer.perform_prompt hroot ht.2 ht.1
  · exact hh

theorem orderStages_prompt {s : Loop} (hroot : env.json.parse buffer = .ok (some root))
    (hh : ∀ k, ¬ Due env buffer h k) :
    Pays env buffer (orderStages env origin.reply root s) h := by
  refine stages_keep (fun stage hin s h hh => ?_) hh
  simp only [List.mem_cons, List.not_mem_nil, or_false] at hin
  rcases hin with rfl | rfl | rfl | rfl | rfl
  · exact prompt_of_raises (Only.ofExcept_bind fun r _ => replied_raises) hh
  · exact prompt_of_raises (((checkProductStock_observes _ _ _).mono
      fun _ => Operation.Passive.raises).bind fun r => replied_raises) hh
  · exact updateStage_prompt hroot hh
  · exact prompt_of_raises (((checkLowStockAlert_observes _ _ _).mono
      fun _ => Operation.Passive.raises).bind fun r => replied_raises) hh
  · exact prompt_of_raises (((reStock_restocks _ _ _).mono
      fun _ => Operation.Restocks.raises).bind fun r => replied_raises) hh

theorem handleMessage_prompt (origin : Origin) {protocol : String} {s : Loop}
    (hh : ∀ k, ¬ Due env buffer h k) :
    Pays env buffer (handleMessage env origin.reply protocol buffer s) h := by
  unfold handleMessage
  refine Meets.bind (Q := fun h _ => ∀ k, ¬ Due env buffer h k) ?_ fun h' r hh' => ?_
  · unfold orderBranch
    split
    · unfold handleOrder
      refine Meets.bind (Q := fun h _ => ∀ k, ¬ Due env buffer h k)
        ⟨fun k hdue => absurd hdue (hh k), fun r _ k => not_due_of_raises (by simp
          [Operation.Raises, Operation.update?]) k⟩ fun h₁ stored hh₁ => ?_
      refine Meets.bind (Meets.ofExcept (Q := fun h' _ => h' = h₁) fun _ _ => rfl) ?_
      rintro h₁ _ rfl
      refine Meets.bind (Meets.ofExcept (Q := fun h' v => h' = h₁ ∧ env.json.parse buffer = .ok v)
        fun v hv => ⟨rfl, hv⟩) ?_
      rintro h₁ v ⟨rfl, hparse⟩
      cases v with
      | none => exact hh₁
      | some root => exact orderStages_prompt hparse hh₁
    · exact hh
  · obtain ⟨s', go⟩ := r
    simp only
    split
    · exact prompt_of_observes ((processMessage_observes _ _ _ _).bind fun _ => trivial) hh'
    · exact hh'

theorem reply_prompt (origin : Origin) (text : String) (hh : ∀ k, ¬ Due env buffer h k) :
    Pays env buffer (origin.reply text) h :=
  prompt_of_observes (Origin.reply_observes origin text) hh

/-- **The credit of an order follows its debit at once**, in the handling of
any message, whatever the replies: no operation comes between, and the handling
does not end before it. -/
theorem iteration_prompt (env : Env) (origin : Origin) (buffer : String) (s : Loop) :
    Pays env buffer (iteration env origin buffer s) [] := by
  have hnil : ∀ k, ¬ Due env buffer [] k := by
    rintro k ⟨h₀, e, _, _, heq, _⟩
    simp at heq
  cases origin with
  | udp cliAddr =>
    show Pays env buffer (handleUdpClients env cliAddr buffer s) []
    unfold handleUdpClients
    refine Meets.bind (Q := fun h _ => ∀ k, ¬ Due env buffer h k)
      ⟨fun k hdue => absurd hdue (hnil k), fun r _ k => not_due_of_raises (by simp
        [Operation.Raises, Operation.update?]) k⟩ fun h₁ registered hh₁ => ?_
    split
    · exact ⟨fun k hdue => absurd hdue (hh₁ k), fun r _ k => not_due_of_raises (by simp
        [Operation.Raises, Operation.update?]) k⟩
    · exact Meets.bind (reply_prompt (.udp cliAddr) "UDP Server received your message." hh₁)
        fun h₂ _ hh₂ => handleMessage_prompt (.udp cliAddr) hh₂
  | tcp clientSockfd =>
    show Pays env buffer (handleTcpClient env clientSockfd buffer s) []
    unfold handleTcpClient
    refine Meets.bind (reply_prompt (.tcp clientSockfd) "TCP Server received your message." hnil)
      fun h₁ written hh₁ => ?_
    split
    · exact handleMessage_prompt (.tcp clientSockfd) hh₁
    · exact hh₁

end

/-- The credit of an order that was handled to its end was asked for, if its
debit was performed. -/
theorem Job.credit_asked {env : Env} {job : Job env} {t : Transfer} {d k : Update}
    {result : Loop} (hdone : job.task.rest = .pure result)
    (ht : AcceptedTransfer env job.buffer t) (hd : t.debit = some d) (hc : t.credit = some k)
    (hdid : did job.task.history d = true) :
    ∃ e ∈ job.task.history, e.1.update? = some k := by
  have hprompt := iteration_prompt env job.origin job.buffer job.loop
  have hend := hprompt.result (Task.leads_pure hdone) fun _ _ => trivial
  have hkept := hprompt.kept job.task.leads (fun _ _ => trivial) Kept.nil
  rw [List.nil_append] at hkept
  obtain ⟨e, he, hp⟩ := List.any_eq_true.1 hdid
  have hdue : ∀ h₀, Due env job.buffer (h₀ ++ [e]) k := fun h₀ =>
    ⟨h₀, e, t, d, rfl, ht, hd, of_decide_eq_true hp, hc⟩
  obtain ⟨h₁, h₂, hsplit⟩ := List.append_of_mem he
  cases h₂ with
  | nil => exact absurd (hsplit ▸ hdue h₁) (hend k)
  | cons e' h₂ =>
    refine ⟨e', by simp [hsplit], hkept (h₁ ++ [e]) e' h₂ ?_ k (hdue h₁)⟩
    rw [hsplit, List.append_assoc]
    rfl

/-! ## The ledger of a run -/

namespace Sys

variable {env : Env} {s : Sys env}

/-- What the restocks added. -/
def restocked (s : Sys env) : Int := (s.log.map fun l => LogisticService.restocked l.event).sum

/-- What was handed to external clients. -/
def shipped (s : Sys env) : Int :=
  (s.jobs.map fun job => LogisticService.shipped env job.buffer job.task.history).sum

/-- What has left a source for a hub and not arrived. -/
def unplaced (s : Sys env) : Int :=
  (s.jobs.map fun job => LogisticService.unplaced env job.buffer job.task.history).sum

/-- Where the units are. -/
structure Accounted (tables : Tables) (s : Sys env) : Prop where
  units : s.shared.tables.units = tables.units + s.restocked - s.shipped - s.unplaced
  restocked : 0 ≤ s.restocked
  shipped : 0 ≤ s.shipped
  unplaced : 0 ≤ s.unplaced
  /-- Nothing is on its way when nothing is under way, and nothing was lost
  when no update of an order failed. -/
  settled : s.active = [] →
    (∀ l ∈ s.log, ∀ u, l.event.1.update? = some u → u.OfTransfer → performed l.event = some u) →
    s.unplaced = 0

/-- What the updates of a run added. -/
theorem updates_sum (log : List Logged) :
    ((log.filterMap fun l => performed l.event).map Update.quantity).sum =
      (log.map fun l => gained l.event).sum := by
  induction log with
  | nil => rfl
  | cons l log ih =>
    rw [List.filterMap_cons, List.map_cons, List.sum_cons, ← ih]
    cases hp : performed l.event with
    | none => simp [gained, hp]
    | some u => simp [gained, hp]

theorem sum_nonneg {α : Type} {f : α → Int} {l : List α} (h : ∀ a ∈ l, 0 ≤ f a) :
    0 ≤ (l.map f).sum := by
  induction l with
  | nil => exact Int.le_refl 0
  | cons a l ih =>
    have ha := h a List.mem_cons_self
    have hrest := ih fun b hb => h b (List.mem_cons_of_mem _ hb)
    rw [List.map_cons, List.sum_cons]
    omega

theorem sum_sub_sub {α : Type} (f g k : α → Int) (l : List α) :
    (l.map fun a => f a - g a - k a).sum = (l.map f).sum - (l.map g).sum - (l.map k).sum := by
  induction l with
  | nil => rfl
  | cons a l ih =>
    simp only [List.map_cons, List.sum_cons, ih]
    omega

/-- An order that is done and whose updates were all performed has nothing unplaced. -/
theorem unplaced_of_done {job : Job env} {result : Loop} (hdone : job.task.rest = .pure result)
    (hkept : Kept (Asks env job.origin job.buffer) job.task.history)
    (hperformed : ∀ e ∈ job.task.history, ∀ u, e.1.update? = some u → u.OfTransfer →
      performed e = some u) :
    LogisticService.unplaced env job.buffer job.task.history = 0 := by
  unfold LogisticService.unplaced
  cases ht : orderTransfer env job.buffer with
  | none => rfl
  | some t =>
    show t.unplaced job.task.history = 0
    cases hd : t.debit with
    | none => simp [Transfer.unplaced, hd]
    | some d =>
      cases hdid : did job.task.history d with
      | false => simp [Transfer.unplaced, hd, hdid]
      | true =>
        cases hc : t.credit with
        | none => simp [Transfer.unplaced, hc]
        | some k =>
          have hacc := accepted_of_did hkept ht hd hdid
          obtain ⟨e, he, hu⟩ := Job.credit_asked hdone hacc hd hc hdid
          have hp := hperformed e he k hu (.inl (hacc.credit_table hc).1)
          have hreceived : did job.task.history k = true :=
            List.any_eq_true.2 ⟨e, he, decide_eq_true hp⟩
          simp [Transfer.unplaced, hc, hreceived]

end Sys

/-- **The stock ledger balances in every reachable state**, on tables with one
row per location and product and quantities within `0 .. INT_MAX`: whatever the
handlers interleave and whichever calls fail, orders create no stock, and none
is missing that is not with an external client or between two tables. -/
theorem stock_accounted {env : Env} {tables : Tables} {es : List Event} {s : Sys env}
    (hone : ∀ k, OneRowEach env.collation (tables.rows k))
    (hrange : ∀ k, ∀ r ∈ tables.rows k, r.InRange)
    (hrun : (Sys.start tables).run es = some s) : s.Accounted tables where
  units := by
    have hunits := (Sys.run_posted hrun).units_eq hone hrange
    have hgained := Sys.run_sum hrun gained
    have hrestocked := Sys.run_sum hrun restocked
    have hbalance : (s.jobs.map fun job => (job.task.history.map gained).sum).sum =
        (s.jobs.map fun job => (job.task.history.map restocked).sum).sum - s.shipped -
          s.unplaced := by
      rw [Sys.shipped, Sys.unplaced, ← Sys.sum_sub_sub]
      exact congrArg List.sum (List.map_congr_left fun job hjob =>
        Kept.balance (Sys.run_kept hrun hjob))
    rw [hunits, Sys.updates, Sys.updates_sum, hgained, hbalance, Sys.restocked, hrestocked]
    omega
  restocked := by
    refine Sys.sum_nonneg fun l _ => ?_
    unfold restocked
    cases performed l.event with
    | none => exact Int.le_refl 0
    | some u =>
      show 0 ≤ if u.OfTransfer then 0 else u.quantity
      split
      · exact Int.le_refl 0
      · next hof => exact Int.not_lt.1 fun hneg => hof (.inr hneg)
  shipped := by
    refine Sys.sum_nonneg fun job _ => ?_
    unfold shipped
    cases ht : orderTransfer env job.buffer with
    | none => exact Int.le_refl 0
    | some t => exact Transfer.shipped_nonneg (orderTransfer_positive ht)
  unplaced := by
    refine Sys.sum_nonneg fun job _ => ?_
    unfold unplaced
    cases ht : orderTransfer env job.buffer with
    | none => exact Int.le_refl 0
    | some t => exact Transfer.unplaced_nonneg (orderTransfer_positive ht)
  settled hactive hperformed := by
    have hzero : ∀ job ∈ s.jobs, unplaced env job.buffer job.task.history = 0 := by
      intro job hjob
      have hfinished := hjob
      rw [Sys.jobs, hactive, List.append_nil] at hfinished
      obtain ⟨f, _, rfl⟩ := List.mem_map.1 hfinished
      refine Sys.unplaced_of_done f.done (Sys.run_kept hrun hjob) fun e he u hu hof => ?_
      have hline : (f.job.origin, f.job.buffer, e) ∈ s.log.map Logged.line := by
        rw [(Sys.run_lines hrun).mem_iff, List.mem_flatMap]
        exact ⟨f.job, hjob, List.mem_map_of_mem he⟩
      obtain ⟨l, hl, heq⟩ := List.mem_map.1 hline
      obtain rfl : l.event = e := congrArg (fun line : Line => line.2.2) heq
      exact hperformed l hl u hu hof
    refine List.sum_eq_zero fun n hn => ?_
    obtain ⟨job, hjob, rfl⟩ := List.mem_map.1 hn
    exact hzero job hjob

/-- Fifty units left the warehouse for a hub that no table has. -/
theorem stock_accounted_unknownHubOrder : ∃ s : Sys unknownHubEnv,
    (Sys.start (waterTables 500)).run unknownHubEvents = some s ∧ s.Accounted (waterTables 500) ∧
      (s.shared.tables.units, s.restocked, s.shipped, s.unplaced) = (450, 0, 0, 50) := by
  have hunits : ((Sys.start (waterTables 500) : Sys unknownHubEnv).run unknownHubEvents).map
      (fun s => (s.shared.tables.units, s.restocked, s.shipped, s.unplaced)) =
        some (450, 0, 0, 50) := by
    decide +kernel
  obtain ⟨s, hrun, hs⟩ := Option.map_eq_some_iff.1 hunits
  exact ⟨s, hrun, stock_accounted (waterTables_one _ 500)
    (waterTables_inRange (by decide) (by decide)) hrun, hs⟩

end LogisticService
