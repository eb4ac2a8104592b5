import LogisticService.Order.Sample
import LogisticService.Server.Reachable

/-!
# What the sender is told

A handled order ends in a completed transfer, in an order rejected by a check,
or in a transfer that failed after both checks accepted the order. In the
first two cases the messages agree with the outcome; in the third the sender
is told nothing and the order is forwarded all the same. An order whose text
does not begin with a brace is forwarded without any check.

A transfer that failed is seen in the history of the message: an update of the
transfer that the database did not perform (`TransferFailed`).
-/

namespace LogisticService

open Effects

section

variable {env : Env} {origin : Origin} {buffer : String} {h : List (Answered Server)}

/-- Each update of a transfer is asked for at most once. -/
theorem transfer_once (hk : Program.Kept (Asks env origin buffer) h) {e e' : Answered Server}
    (he : e ∈ h) (he' : e' ∈ h) {u : Update} (hu : e.1.update? = some u)
    (hu' : e'.1.update? = some u) (hof : u.OfTransfer) : e = e' := by
  -- The later of two requests would have seen the earlier one.
  have hlater : ∀ {x y : Answered Server}, x.1.update? = some u → y.1.update? = some u →
      ∀ h₁, x ∈ h₁ → Asks env origin buffer h₁ y.1 → False := by
    intro x y hx hy h₁ hin hasks
    obtain ⟨t, d, ht, hd, ⟨rfl, hquiet, _⟩ | ⟨hcredit, h₀, ed, rfl, hquiet, _, hperf⟩⟩ :=
      hasks.transfer_inv hy hof
    · exact absurd (hx.symm.trans (hquiet x hin)) (by simp)
    · rcases List.mem_append.1 hin with hold | hnew
      · exact absurd (hx.symm.trans (hquiet x hold)) (by simp)
      · obtain rfl := List.mem_singleton.1 hnew
        have hxd : x.1.update? = some d := performed_update (r := x.2) hperf
        exact ht.debit_ne_credit hd hcredit (Option.some.inj (hxd.symm.trans hx))
  by_contra hne
  rcases hk.ordered he he' hne with ⟨h₁, hin, hasks⟩ | ⟨h₁, hin, hasks⟩
  · exact hlater hu hu' h₁ hin hasks
  · exact hlater hu' hu h₁ hin hasks

/-- An order that was answered with an error had no transfer. -/
theorem no_transfer_of_error (hk : Program.Kept (Asks env origin buffer) h)
    (herror : ErrorSent env origin h) {e : Answered Server} (he : e ∈ h) {u : Update}
    (hu : e.1.update? = some u) (hof : u.OfTransfer) : False := by
  obtain ⟨e', he', text, hsend, htext⟩ := herror
  have ht' : e'.1.text? = some text := by rw [hsend, Origin.send_text]
  have hnone : e'.1.update? = none := Asks.update?_of_text ht'
  have hne : e ≠ e' := by
    rintro rfl
    exact absurd (hu.symm.trans hnone) (by simp)
  rcases hk.ordered he he' hne with ⟨h₁, hin, hasks⟩ | ⟨h₁, hin, hasks⟩
  · exact absurd (hu.symm.trans ((hasks.error_inv ht' htext).2 e hin)) (by simp)
  · obtain ⟨t, d, _, _, ⟨_, _, hclean⟩ | ⟨_, h₀, ed, rfl, _, hclean, hperf⟩⟩ :=
      hasks.transfer_inv hu hof
    · exact hclean e' hin text ht' htext
    · rcases List.mem_append.1 hin with hold | hnew
      · exact hclean e' hold text ht' htext
      · obtain rfl := List.mem_singleton.1 hnew
        have hd : e'.1.update? = some d := performed_update (r := e'.2) hperf
        exact absurd (hd.symm.trans hnone) (by simp)

/-- An update of a transfer belongs to an accepted order. -/
theorem accepted_of_transfer (hk : Program.Kept (Asks env origin buffer) h) {e : Answered Server}
    (he : e ∈ h) {u : Update} (hu : e.1.update? = some u) (hof : u.OfTransfer) :
    ∃ t d, AcceptedTransfer env buffer t ∧ t.debit = some d ∧
      (u = d ∨ t.credit = some u) := by
  obtain ⟨h₁, h₂, rfl⟩ := List.append_of_mem he
  obtain ⟨t, d, ht, hd, ⟨rfl, _⟩ | ⟨hcredit, _⟩⟩ := (hk h₁ e h₂ rfl).transfer_inv hu hof
  · exact ⟨t, _, ht, hd, .inl rfl⟩
  · exact ⟨t, d, ht, hd, .inr hcredit⟩

end

namespace Finished

variable {env : Env}

/-- The history of a handled message. -/
def history (f : Finished env) : List (Answered Server) := f.job.task.history

/-- `realTimeUpdate` moved the stock of the order: both sides were performed. -/
def Transferred (f : Finished env) (root : Value) : Prop :=
  ∃ t, Transfer.ofJson root = .ok t ∧ 0 < t.quantity ∧ t.Completed f.history

/-- The order was forwarded to some client. -/
def Forwarded (f : Finished env) : Prop :=
  ∃ e ∈ f.history, ∃ text, e.1.text? = some text ∧ IsForward text

/-- The messages sent for an order agree with what became of its transfer. -/
structure Agrees (f : Finished env) (root : Value) : Prop where
  success : f.Transferred root → SuccessSent f.job.origin f.history
  failure : ¬ f.Transferred root → ErrorSent env f.job.origin f.history
  forward : f.Forwarded → f.Transferred root

end Finished

section

variable {env : Env} {f : Finished env} {root : Value}

theorem Update.debit_ofTransfer {t : Transfer} {d : Update} (hd : t.debit = some d)
    (hq : 0 < t.quantity) : d.OfTransfer := by
  have := (Update.ofType_some hd).2.2.1
  exact .inr (by omega)

/-- A completed transfer was asked for. -/
theorem Finished.Transferred.debited (h : f.Transferred root) :
    ∃ t d e, Transfer.ofJson root = .ok t ∧ t.debit = some d ∧ d.OfTransfer ∧ e ∈ f.history ∧
      performed e = some d ∧ e.1.update? = some d := by
  obtain ⟨t, ht, hq, ⟨d, hd, e, he, hp⟩, _⟩ := h
  exact ⟨t, d, e, ht, hd, Update.debit_ofTransfer hd hq, he, hp, performed_update (r := e.2) hp⟩

/-- The messages disagree with the outcome when the order has no brace, or an
update of its transfer failed. -/
theorem Finished.Agrees.needs (halert : AlertOk env f.job.loop)
    (hroot : env.json.parse f.job.buffer = .ok (some root)) (h : f.Agrees root) :
    beginsWithBrace f.job.buffer = true ∧ ¬ TransferFailed f.history := by
  have hk : Program.Kept (Asks env f.job.origin f.job.buffer) f.history := Job.kept halert
  have hbrace : beginsWithBrace f.job.buffer = true := by
    by_cases hdone : f.Transferred root
    · obtain ⟨_, d, e, _, _, hof, he, _, hu⟩ := hdone.debited
      obtain ⟨t, _, ht, _⟩ := accepted_of_transfer hk he hu hof
      exact ht.brace
    · obtain ⟨e, he, text, hsend, htext⟩ := h.failure hdone
      obtain ⟨h₁, h₂, heq⟩ := List.append_of_mem he
      have ht : e.1.text? = some text := by rw [hsend, Origin.send_text]
      exact ((hk h₁ e h₂ heq).error_inv ht htext).1
  refine ⟨hbrace, fun ⟨e, he, u, hu, hof, hfail⟩ => ?_⟩
  by_cases hdone : f.Transferred root
  · obtain ⟨t, ht, hq, ⟨d, hd, e₁, he₁, hp₁⟩, hcredit⟩ := hdone
    obtain ⟨t', d', hacc, hd', hside⟩ := accepted_of_transfer hk he hu hof
    obtain ⟨root', hroot', _, ht'⟩ := hacc.order
    cases hroot.symm.trans hroot'
    cases ht.symm.trans ht'
    cases hd.symm.trans hd'
    -- The side that failed was performed, and it was asked for once.
    obtain ⟨e₂, he₂, hp₂⟩ : ∃ e₂ ∈ f.history, performed e₂ = some u := by
      rcases hside with rfl | hk'
      · exact ⟨e₁, he₁, hp₁⟩
      · exact hcredit u hk'
    obtain rfl := transfer_once hk he he₂ hu (performed_update (r := e₂.2) hp₂) hof
    exact absurd (hfail.symm.trans hp₂) (by simp)
  · exact no_transfer_of_error hk (h.failure hdone) he hu hof

/-- With a brace, no failed send and no failed update, the messages agree with
the outcome. -/
theorem Finished.agrees_of (halert : AlertOk env f.job.loop)
    (hroot : env.json.parse f.job.buffer = .ok (some root)) (hsent : ¬ Broken f.history)
    (hbrace : beginsWithBrace f.job.buffer = true) (hok : ¬ TransferFailed f.history) :
    f.Agrees root := by
  have hk : Program.Kept (Asks env f.job.origin f.job.buffer) f.history := Job.kept halert
  have hsettled := ((Job.ends halert f.done).settled hbrace root hroot).resolve_left hsent
  by_cases hflags : f.result.isValid = true ∧ f.result.productStock = true
  · -- Accepted: the success reply was sent, so the transfer was completed.
    have hsuccess : SuccessSent f.job.origin f.history :=
      (hsettled.accepted hflags.1 hflags.2).2.resolve_right hok
    have hdone : f.Transferred root := by
      obtain ⟨e, he, hsend⟩ := hsuccess
      obtain ⟨h₁, h₂, heq⟩ := List.append_of_mem he
      obtain ⟨t, ht, ⟨d, hd, e₁, he₁, hp₁⟩, hcredit⟩ :=
        (hk h₁ e h₂ heq).success_inv (by rw [hsend, Origin.send_text]) hbrace
      obtain ⟨root', hroot', _, htransfer⟩ := ht.order
      cases hroot.symm.trans hroot'
      have hmem : ∀ x ∈ h₁, x ∈ f.history := fun x hx => heq ▸ List.mem_append_left _ hx
      refine ⟨t, htransfer, ht.positive, ⟨d, hd, e₁, hmem e₁ he₁, hp₁⟩, fun k hk' => ?_⟩
      obtain ⟨e₂, he₂, hp₂⟩ := hcredit k hk'
      exact ⟨e₂, hmem e₂ he₂, hp₂⟩
    exact ⟨fun _ => hsuccess, fun hn => absurd hdone hn, fun _ => hdone⟩
  · -- Rejected: an error was sent, so there was no transfer.
    have herror : ErrorSent env f.job.origin f.history :=
      hsettled.rejected ((Classical.not_and_iff_not_or_not.1 hflags).imp (by simp) (by simp))
    have hnone : ¬ f.Transferred root := fun hdone => by
      obtain ⟨_, d, e, _, _, hof, he, _, hu⟩ := hdone.debited
      exact no_transfer_of_error hk herror he hu hof
    refine ⟨fun hdone => absurd hdone hnone, fun _ => herror, fun ⟨e, he, text, ht, hf⟩ => ?_⟩
    obtain ⟨h₁, h₂, heq⟩ := List.append_of_mem he
    obtain ⟨t, d, hacc, hd, e', he', hu⟩ := (hk h₁ e h₂ heq).forward_inv ht hf hbrace
    have hin : e' ∈ f.history := heq ▸ List.mem_append_left _ he'
    exact (no_transfer_of_error hk herror hin hu (.inr (hacc.debit_quantity hd))).elim

end

/-- **Outcome and notification.** For every message of every run that parses
as an order and was handled with all its sends succeeding, the messages agree
with the outcome exactly when the text begins with a brace and every update
the transfer asked for was performed. -/
theorem outcome_agrees_iff {env : Env} {tables : Tables} {es : List Event} {s : Sys env}
    (hrun : (Sys.start tables).run es = some s) {f : Finished env} (hf : f ∈ s.finished)
    {root : Value} (hroot : env.json.parse f.job.buffer = .ok (some root))
    (hsent : ¬ Broken f.history) :
    f.Agrees root ↔ beginsWithBrace f.job.buffer = true ∧ ¬ TransferFailed f.history := by
  have halert : AlertOk env f.job.loop := by
    rcases (Sys.run_conducted hrun).finished f hf with ⟨_, h⟩ | ⟨_, _, _, h⟩ <;> exact h.1
  exact ⟨fun h => h.needs halert hroot,
    fun ⟨hbrace, hok⟩ => Finished.agrees_of halert hroot hsent hbrace hok⟩

/-! ## An order whose sender is told nothing -/

/-- An answered operation: what it sent or updated, and how that ended. -/
structure Entry where
  text : Option String
  update : Option Update
  done : Bool
  failed : Bool
deriving DecidableEq

def Entry.of (e : Answered Server) : Entry :=
  ⟨e.1.text?, e.1.update?, (performed e).isSome, sendFailed e⟩

/-- A server that can read the order for an unknown hub. -/
def unknownHubEnv : Env := .reading [(unknownHubOrderText, unknownHubOrder)]

/-- The events of a connection that sends that order and has it handled. -/
def unknownHubEvents : List Event :=
  .accept 5 ⟨⟨127, 0, 0, 1⟩, 5000⟩ :: .read 0 "7" :: .read 0 unknownHubOrderText ::
    List.replicate 9 (.proceed (.tcp 0) true)

/-- The debit is performed, the credit is not; the sender gets the
acknowledgement and an empty alert. -/
theorem unknownHubOrder_run :
    ((Sys.start (waterTables 500) : Sys unknownHubEnv).run unknownHubEvents).map
        (fun s => s.finished.map fun f => (f.job.buffer, f.history.map Entry.of)) =
      some [(unknownHubOrderText,
        [⟨some "TCP Server received your message.", none, false, false⟩,
          ⟨none, none, false, false⟩,
          ⟨none, none, false, false⟩,
          ⟨none, some ⟨.warehouses, 1, "Water", -50⟩, true, false⟩,
          ⟨none, some ⟨.hubs, 9, "Water", 50⟩, false, false⟩,
          ⟨none, none, false, false⟩,
          ⟨none, none, false, false⟩,
          ⟨some "", none, false, false⟩,
          ⟨none, none, false, false⟩])] := by
  decide +kernel

theorem unknownHubEnv_reads :
    unknownHubEnv.json.parse unknownHubOrderText = .ok (some unknownHubOrder) := by
  simp [unknownHubEnv, Env.reading, JsonCpp.ofReader, List.lookup_cons]

/-- The order was handled to completion, its sends succeeded, its transfer did not. -/
theorem unknownHubOrder_finished : ∃ (s : Sys unknownHubEnv) (f : Finished unknownHubEnv),
    (Sys.start (waterTables 500)).run unknownHubEvents = some s ∧ f ∈ s.finished ∧
      unknownHubEnv.json.parse f.job.buffer = .ok (some unknownHubOrder) ∧
      ¬ Broken f.history ∧ TransferFailed f.history := by
  obtain ⟨s, hrun, hs⟩ := Option.map_eq_some_iff.1 unknownHubOrder_run
  obtain ⟨f, hf, hentries⟩ := List.map_eq_singleton_iff.1 hs
  obtain ⟨hbuffer, hhistory⟩ := Prod.mk.inj hentries
  refine ⟨s, f, hrun, hf ▸ List.mem_singleton_self f, hbuffer ▸ unknownHubEnv_reads, ?_, ?_⟩
  · rintro ⟨e, he, hfailed⟩
    have hin := List.mem_map_of_mem (f := Entry.of) he
    rw [hhistory] at hin
    simp [Entry.of, hfailed] at hin
  · have hin : Entry.mk none (some ⟨.hubs, 9, "Water", 50⟩) false false ∈
        f.history.map Entry.of := by
      rw [hhistory]; simp
    obtain ⟨e, he, heq⟩ := List.mem_map.1 hin
    simp only [Entry.of, Entry.mk.injEq, Option.isSome_eq_false_iff, Option.isNone_iff_eq_none]
      at heq
    exact ⟨e, he, _, heq.2.1, .inl rfl, heq.2.2.1⟩

/-- So the messages of an order need not agree with its outcome. -/
theorem outcome_disagrees : ¬ ∀ (env : Env) (tables : Tables) (es : List Event) (s : Sys env)
    (f : Finished env) (root : Value), (Sys.start tables).run es = some s → f ∈ s.finished →
      env.json.parse f.job.buffer = .ok (some root) → ¬ Broken f.history → f.Agrees root := by
  intro h
  obtain ⟨s, f, hrun, hf, hroot, hsent, hfailed⟩ := unknownHubOrder_finished
  have halert : AlertOk unknownHubEnv f.job.loop := by
    rcases (Sys.run_conducted hrun).finished f hf with ⟨_, h⟩ | ⟨_, _, _, h⟩ <;> exact h.1
  exact ((h _ _ _ s f _ hrun hf hroot hsent).needs halert hroot).2 hfailed

theorem outcome_agrees_iff_unknownHubOrder : ∃ (s : Sys unknownHubEnv)
    (f : Finished unknownHubEnv), f ∈ s.finished ∧
      (f.Agrees unknownHubOrder ↔
        beginsWithBrace f.job.buffer = true ∧ ¬ TransferFailed f.history) := by
  obtain ⟨s, f, hrun, hf, hroot, hsent, _⟩ := unknownHubOrder_finished
  exact ⟨s, f, hf, outcome_agrees_iff hrun hf hroot hsent⟩

end LogisticService
