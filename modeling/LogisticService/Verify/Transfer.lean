import LogisticService.Order.Sample
import LogisticService.Server.Requests

/-!
# All-or-nothing transfers

A transfer is a debit and then a credit, each a call of its own; nothing takes
the debit back when the credit fails. `Transfer.Strands` is the exact condition
under which `realTimeUpdate` reports a failure and leaves the tables changed:
the debit takes effect, the destination is in a table, and the credit does not.
-/

namespace LogisticService

open Effects

namespace Transfer

/-- The debit takes effect and the credit that follows it does not, on tables
with this content and calls that succeed as listed. -/
def Strands (c : Collation) (t : Transfer) (tables : Tables) (oks : List Bool) : Prop :=
  ∃ d k, t.debit = some d ∧ t.credit = some k ∧ (oks.headD true = true ∧ d.Takes c tables) ∧
    ¬ (oks.tail.headD true = true ∧ k.Takes c (d.apply c tables))

/-- How a transfer made on its own can end. -/
theorem perform_alone (env : Env) (t : Transfer) (s : Alone) :
    ∃ v s', runAlone env t.perform s = (.ok v, s') ∧
      ((v > 0 ∧ ¬ t.Strands env.collation s.1.tables s.2) ∨
        (v ≤ 0 ∧ ¬ t.Strands env.collation s.1.tables s.2 ∧ s'.1.tables = s.1.tables) ∨
        (v ≤ 0 ∧ t.Strands env.collation s.1.tables s.2 ∧ s'.1.tables ≠ s.1.tables)) := by
  cases hd : t.debit with
  | none =>
    rw [perform_of_no_debit hd]
    exact ⟨0, s, rfl, .inr (.inl ⟨by decide, by simp [Strands, hd], rfl⟩)⟩
  | some d =>
    rw [perform_of_debit hd]
    obtain ⟨v, s₁, hrun, ⟨rfl, hok, htakes, htables⟩ | ⟨rfl, hnot, htables⟩⟩ := d.call_alone env s
    · rw [runAlone_bind_of_ok hrun, if_pos (by decide)]
      cases hk : t.credit with
      | none => exact ⟨1, _, rfl, .inl ⟨by decide, by simp [Strands, hk]⟩⟩
      | some k =>
        obtain ⟨w, s₂, hrun₂, ⟨rfl, hok₂, htakes₂, _⟩ | ⟨rfl, hnot₂, htables₂⟩⟩ :=
          k.call_alone env (s₁, s.2.tail)
        · refine ⟨1, _, hrun₂, .inl ⟨by decide, ?_⟩⟩
          rintro ⟨d', k', hd', hk', -, hstuck⟩
          obtain rfl : d = d' := Option.some.inj (hd.symm.trans hd')
          obtain rfl : k = k' := Option.some.inj (hk.symm.trans hk')
          exact hstuck ⟨hok₂, htables ▸ htakes₂⟩
        · refine ⟨-1, _, hrun₂, .inr (.inr ⟨by decide, ⟨d, k, hd, hk, ⟨hok, htakes⟩, ?_⟩, ?_⟩)⟩
          · rw [← htables]; exact hnot₂
          · rw [show s₂.tables = _ from htables₂, htables]
            exact htakes.apply_ne
    · rw [runAlone_bind_of_ok hrun, if_neg (by decide)]
      refine ⟨-1, _, rfl, .inr (.inl ⟨by decide, ?_, htables⟩)⟩
      rintro ⟨d', k', hd', -, htakes, -⟩
      obtain rfl : d = d' := Option.some.inj (hd.symm.trans hd')
      exact hnot htakes

end Transfer

theorem realTimeUpdate_of_transfer {request : Value} {t : Transfer}
    (h : Transfer.ofJson request = .ok t) : realTimeUpdate request = t.perform := by
  unfold realTimeUpdate
  rw [h]
  rfl

theorem realTimeUpdate_of_error {request : Value} {e : Exn}
    (h : Transfer.ofJson request = .error e) : realTimeUpdate request = .throw e := by
  unfold realTimeUpdate
  rw [h]
  rfl

/-- **A failed transfer leaves the tables as they were exactly when it strands
no stock**: on any tables, any order and any outcome of the two calls. -/
theorem realTimeUpdate_unchanged_iff (env : Env) (request : Value) (s : Alone) :
    (∀ v s', runAlone env (realTimeUpdate request) s = (.ok v, s') → v ≤ 0 →
        s'.1.tables = s.1.tables) ↔
      ¬ ∃ t, Transfer.ofJson request = .ok t ∧ t.Strands env.collation s.1.tables s.2 := by
  cases ht : Transfer.ofJson request with
  | error e =>
    rw [realTimeUpdate_of_error ht]
    refine ⟨fun _ ⟨t, h, _⟩ => ?_, fun _ v s' hrun => ?_⟩
    · cases h
    · cases hrun
  | ok t =>
    rw [realTimeUpdate_of_transfer ht]
    simp only [Except.ok.injEq, exists_eq_left']
    obtain ⟨v, s', hrun, ⟨hpos, hnot⟩ | ⟨hle, hnot, htables⟩ | ⟨hle, hstrands, hne⟩⟩ :=
      t.perform_alone env s
    · refine ⟨fun _ => hnot, fun _ w s'' hrun' hle => ?_⟩
      cases hrun.symm.trans hrun'
      omega
    · refine ⟨fun _ => hnot, fun _ w s'' hrun' _ => ?_⟩
      cases hrun.symm.trans hrun'
      exact htables
    · exact ⟨fun h => absurd (h v s' hrun hle) hne, fun hnot => absurd hstrands hnot⟩

/-! ## An order that strands stock -/

/-- The order passes both checks, its transfer returns `-1`, and the fifty
units are gone. -/
theorem unknownHubOrder_stranded :
    let env : Env := .reading []
    let s : Alone := (.start (waterTables 500), [])
    validateOrderLimits env.json unknownHubOrder "" = .ok (true, "") ∧
      (runAlone env (checkProductStock env.json unknownHubOrder "") s).1 = .ok (true, "") ∧
      (runAlone env (realTimeUpdate unknownHubOrder) s).1 = .ok (-1) ∧
      (runAlone env (realTimeUpdate unknownHubOrder) s).2.1.tables = waterTables 450 := by
  refine ⟨?_, ?_, ?_, ?_⟩ <;> decide +kernel

/-- So a transfer is not all-or-nothing, not even for an order that passed
both checks on these tables. -/
theorem realTimeUpdate_not_allOrNothing : ¬ ∀ (env : Env) (request : Value) (s s' : Alone)
    (v : Int), validateOrderLimits env.json request "" = .ok (true, "") →
      (runAlone env (checkProductStock env.json request "") s).1 = .ok (true, "") →
      runAlone env (realTimeUpdate request) s = (.ok v, s') → v ≤ 0 →
        s'.1.tables = s.1.tables := by
  intro h
  obtain ⟨hvalid, hstock, hresult, htables⟩ := unknownHubOrder_stranded
  have hsame := h _ _ _ _ (-1) hvalid hstock (Prod.ext hresult rfl) (by decide)
  have hne : waterTables 450 ≠ waterTables 500 := by decide
  exact hne (htables.symm.trans hsame)

end LogisticService
