import LogisticService.Order.Sample
import LogisticService.Server.Reachable

/-!
# Restocking and the capacity of a warehouse

A restock raises a stock by what an earlier read was short of the capacity, so
it fills the warehouse exactly when the stock is still what was read, and
overfills it when another handler restocked in between. `StockStands` is the
exact condition on a step: when a restock is answered, no row it names holds
more than the read it was computed from.
-/

namespace LogisticService

open Effects

variable {env : Env}

/-- No warehouse holds more than its capacity. -/
def WithinCapacity (s : Sys env) : Prop :=
  ∀ r ∈ s.shared.tables.warehouses, ∀ a, r.availableQuantity = some a → a ≤ MAX_CAPACITY

/-- When the event answers a restock, no row it names has risen since the read
it was computed from. -/
def StockStands (s : Sys env) (e : Event) : Prop :=
  ∀ who (job : Job env) h product warehouseId rows amount,
    e = .proceed who true → s.activity? who = some (.busy job) →
    job.task.history = h ++ [⟨.getWarehouseInventory product warehouseId, rows⟩] →
    job.task.next? = some (.updateWarehouseInventory warehouseId product amount) → 0 < amount →
    ∀ r ∈ s.shared.tables.warehouses, r.names env.collation warehouseId product = true →
      ∀ a, r.availableQuantity = some a → a ≤ readStock rows

/-- A stock read found a quantity that is not negative, or failed. -/
def ReadOk : Answered Server → Prop
  | ⟨.getWarehouseInventory _ _, rows⟩ => -1 ≤ readStock rows
  | _ => True

/-- What a handler has read so far. -/
def ReadsOk (_ : Option Int) : Activity env → Prop
  | .idle _ => True
  | .busy job => ∀ e ∈ job.task.history, ReadOk e

/-- Within capacity and not negative, under the contract of the handlers. -/
structure Stocked (s : Sys env) : Prop where
  conducted : s.Every (Conducted env)
  reads : s.Every ReadsOk
  rows : ∀ r ∈ s.shared.tables.warehouses, ∀ a, r.availableQuantity = some a →
    0 ≤ a ∧ a ≤ MAX_CAPACITY

theorem readsOk_stable : @Stable env ReadsOk where
  start := trivial
  register _ _ := trivial
  receive _ _ _ _ _ _ := fun _ he => absurd he List.not_mem_nil
  finish _ _ _ _ _ := trivial

theorem readStock_select {c : Collation} {id : Int} {product : String} {rows : List Row}
    (hrows : ∀ r ∈ rows, ∀ a, r.availableQuantity = some a → 0 ≤ a) :
    -1 ≤ readStock (some (selectRows c id product rows)) := by
  cases hsel : selectRows c id product rows with
  | nil => exact Int.le_refl _
  | cons q rest =>
    cases q with
    | none => exact Int.le_refl _
    | some n =>
      have hmem : some n ∈ selectRows c id product rows := hsel ▸ List.mem_cons_self
      obtain ⟨r, hr, hq⟩ := List.mem_map.1 hmem
      have := hrows r (List.mem_filter.1 hr).1 n hq
      simp only [readStock]
      omega

theorem answer_readOk {s : Shared} {ok : Bool} (o : Operation)
    (hrows : ∀ r ∈ s.tables.warehouses, ∀ a, r.availableQuantity = some a → 0 ≤ a) :
    ReadOk ⟨o, (answer env ok s o).1⟩ := by
  cases o with
  | getWarehouseInventory product warehouseId =>
    simp only [ReadOk, answer]
    split
    · exact readStock_select hrows
    · exact Int.le_refl _
  | _ => trivial

theorem Stocked.step_reads {s s' : Sys env} {e : Event} (hI : Stocked s)
    (h : s.step e = some s') : s'.Every ReadsOk := by
  refine hI.reads.step readsOk_stable h ?_
  intro who ok k job event task shared _ _ _ hjob htask e he
  obtain ⟨_, _, hreply, hhistory, _, _⟩ := Task.step_some htask
  have he : e ∈ job.task.history ++ [event] := hhistory ▸ he
  rcases List.mem_append.1 he with hold | hnew
  · exact hjob e hold
  · obtain rfl := List.mem_singleton.1 hnew
    obtain ⟨o, r⟩ := e
    simp only at hreply
    subst hreply
    exact answer_readOk o fun r hr a hq => (hI.rows r hr a hq).1

theorem readStock_amount_pos {rows : Option (List (Option Int))}
    (h : readStock rows ≤ RESTOCK_THRESHOLD) : 0 < MAX_CAPACITY - readStock rows := by
  unfold RESTOCK_THRESHOLD at h
  unfold MAX_CAPACITY
  omega

/-- A step keeps within capacity under its condition. -/
theorem Stocked.step {s s' : Sys env} {e : Event} (hI : Stocked s) (h : s.step e = some s')
    (hC : StockStands s e) : Stocked s' := by
  refine ⟨hI.conducted.step_conducted h, hI.step_reads h, fun r hr b hb => ?_⟩
  obtain ⟨htables, -⟩ | ⟨who, ok, _, _, _, rfl, _⟩ := Sys.step_tables h
  · exact hI.rows r (htables ▸ hr) b hb
  obtain ⟨job, o, hact, hnext, hasks, hshared⟩ := Sys.proceed_asks hI.conducted h
  rw [hshared] at hr
  obtain ⟨u, hp, hu, rfl, htakes, htables⟩ | ⟨_, htables, _⟩ := answer_update env ok s.shared o
  · have hrows : (u.apply env.collation s.shared.tables).warehouses = _ :=
      Update.apply_rows env.collation u s.shared.tables .warehouses
    rw [htables, hrows] at hr
    split at hr
    · next htable =>
      obtain ⟨x, hx, rfl⟩ := List.mem_map.1 hr
      rcases Update.onRow_quantity hb with hold | ⟨a, haccepts, hq, rfl⟩
      · exact hI.rows x hx b hold
      · obtain ⟨_, a', hq', hguard⟩ := Row.accepts_iff.1 haccepts
        cases hq.symm.trans hq'
        refine ⟨hguard, ?_⟩
        have hle := (hI.rows x hx a hq).2
        by_cases hof : u.OfTransfer
        · -- A transfer only lowers a warehouse.
          rcases hof with hhubs | hneg
          · exact absurd (htable.trans hhubs) (by decide)
          · omega
        · obtain ⟨h₀, product, warehouseId, rows, hlast, hlow, rfl⟩ := hasks.restock_inv hu hof
          cases hu
          have := hC who job h₀ product warehouseId rows _ rfl hact hlast hnext
            (readStock_amount_pos hlow) x hx haccepts.names a hq
          simp only
          omega
    · exact hI.rows r hr b hb
  · rw [htables] at hr
    exact hI.rows r hr b hb

/-- A restock of a row that has risen since the read overfills it. -/
theorem Stocked.needs {s s' : Sys env} {e : Event} (hI : Stocked s) (h : s.step e = some s')
    (hP : WithinCapacity s') : StockStands s e := by
  intro who job h₀ product warehouseId rows amount rfl hact hlast hnext hpos r hr hnames a hq
  obtain ⟨job', o, hact', hnext', hasks, hshared⟩ := Sys.proceed_asks hI.conducted h
  cases hact.symm.trans hact'
  cases hnext.symm.trans hnext'
  have hof : ¬ Update.OfTransfer ⟨.warehouses, warehouseId, product, amount⟩ := by
    rintro (htable | hneg)
    · cases htable
    · simp only at hneg; omega
  obtain ⟨h₁, product', warehouseId', rows', hlast', hlow, ho⟩ := hasks.restock_inv rfl hof
  obtain ⟨-, hsame⟩ := List.append_inj' (hlast.symm.trans hlast') rfl
  cases List.singleton_inj.1 hsame
  have hamount : amount = MAX_CAPACITY - readStock rows := by simpa using ho
  have hread : -1 ≤ readStock rows := by
    obtain ⟨_, _, hreads⟩ := hI.reads.active hact
    exact hreads _ (hlast ▸ List.mem_append_right _ (List.mem_singleton_self _))
  by_contra hrisen
  unfold MAX_CAPACITY at hamount
  -- The restock takes effect, on this row among others.
  have haccepts : Update.Accepts env.collation ⟨.warehouses, warehouseId, product, amount⟩ r :=
    Row.accepts_iff.2 ⟨hnames, a, hq, by simp only; omega⟩
  have htakes : Update.Takes env.collation ⟨.warehouses, warehouseId, product, amount⟩
      s.shared.tables := by
    refine ⟨by simp only; omega, ⟨r, hr, haccepts⟩, fun x hx hax => ?_⟩
    obtain ⟨_, b, hqb, hguard⟩ := Row.accepts_iff.1 hax
    obtain ⟨_, hle⟩ := hI.rows x hx b hqb
    have hint : IsInt (b + amount) := by
      simp only at hguard
      unfold MAX_CAPACITY at hle
      unfold IsInt INT_MIN INT_MAX
      omega
    simp only [Row.fits, hqb, decide_eq_true hint]
  obtain ⟨u, _, hu, _, _, htables⟩ | ⟨_, _, hnot⟩ := answer_update env true s.shared
    (.updateWarehouseInventory warehouseId product amount)
  · cases hu
    have hin : Update.onRow env.collation ⟨.warehouses, warehouseId, product, amount⟩ r ∈
        s'.shared.tables.warehouses := by
      rw [hshared, htables]
      exact List.mem_map_of_mem hr
    have hfull := hP _ hin (a + amount) (by
      rw [Update.onRow_of_accepts haccepts, Row.add, hq]; rfl)
    unfold MAX_CAPACITY at hfull
    omega
  · exact hnot _ rfl ⟨rfl, htakes⟩

/-- **Restocking never overfills exactly as long as no stock rises between a
restock's read and its update**, from tables within capacity, over every run. -/
theorem within_capacity_iff {tables : Tables}
    (hstart : ∀ r ∈ tables.warehouses, ∀ a, r.availableQuantity = some a →
      0 ≤ a ∧ a ≤ MAX_CAPACITY) (es : List Event) :
    Throughout Sys.step WithinCapacity (Sys.start tables : Sys env) es ↔
      Along Sys.step StockStands (Sys.start tables : Sys env) es :=
  throughout_iff_along (I := Stocked) (fun _ _ _ hI h hC => hI.step h hC)
    (fun _ h r hr a hq => (h.rows r hr a hq).2) (fun _ _ _ hI h hP => hI.needs h hP)
    ⟨Sys.start_every conducted_stable tables, Sys.start_every readsOk_stable tables, hstart⟩

/-! ## Two restocks after one another's read -/

/-- Two connections send the order; both have read the stock for their restock
before either restocks. -/
def racingEvents : List Event :=
  [.accept 5 ⟨⟨127, 0, 0, 1⟩, 5000⟩, .accept 6 ⟨⟨127, 0, 0, 1⟩, 5001⟩, .read 0 "7", .read 1 "8",
    .read 0 externalOrderText, .read 1 externalOrderText] ++
  List.replicate 7 (.proceed (.tcp 0) true) ++ List.replicate 7 (.proceed (.tcp 1) true) ++
  [.proceed (.tcp 0) true, .proceed (.tcp 1) true, .proceed (.tcp 0) true, .proceed (.tcp 1) true]

/-- Both read seventy units and add nine hundred and thirty. -/
theorem racingEvents_run :
    ((Sys.start (waterTables 120) : Sys externalEnv).run racingEvents).map
      (fun s => s.shared.tables.warehouses) = some [⟨some 1, some "Water", some 1930⟩] := by
  decide +kernel

theorem waterTables_within {quantity : Int} (h0 : 0 ≤ quantity) (hle : quantity ≤ MAX_CAPACITY) :
    ∀ r ∈ (waterTables quantity).warehouses, ∀ a, r.availableQuantity = some a →
      0 ≤ a ∧ a ≤ MAX_CAPACITY := by
  intro r hr a ha
  cases List.mem_singleton.1 hr
  cases ha
  exact ⟨h0, hle⟩

/-- So concurrent restocks overfill a warehouse. -/
theorem racing_restocks_overfill :
    ¬ Throughout Sys.step WithinCapacity (Sys.start (waterTables 120) : Sys externalEnv)
      racingEvents := by
  intro h
  obtain ⟨s, hrun, hs⟩ := Option.map_eq_some_iff.1 racingEvents_run
  have := h.last hrun ⟨some 1, some "Water", some 1930⟩ (hs ▸ List.mem_singleton_self _) 1930 rfl
  exact absurd this (by decide)

theorem within_capacity_iff_racing :
    Throughout Sys.step WithinCapacity (Sys.start (waterTables 120) : Sys externalEnv)
        racingEvents ↔
      Along Sys.step StockStands (Sys.start (waterTables 120) : Sys externalEnv) racingEvents :=
  within_capacity_iff (waterTables_within (by decide) (by decide)) racingEvents

end LogisticService
