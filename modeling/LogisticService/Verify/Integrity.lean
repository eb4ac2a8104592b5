import LogisticService.Order.Sample
import LogisticService.Server.Steps
import LogisticService.Server.Updates
import Mathlib.Algebra.GroupWithZero.Nat
import Mathlib.Algebra.Ring.Int.Defs

/-!
# Inventory integrity under concurrency

Seen from the tables, a run of the server is a list of updates, each of which
took effect on the tables the ones before it left (`Posted`); which handler
asked for which, and what else ran in between, no longer matters. Over such a
list every row holds its initial quantity plus what the updates naming it
added, and stays in range, because an update that takes effect has passed both
the guard of the procedure and the range of the column.
-/

namespace LogisticService

open Effects

/-- The updates, in this order, lead from one content of the tables to another. -/
inductive Posted (c : Collation) (start : Tables) : List Update → Tables → Prop
  | nil : Posted c start [] start
  | snoc {us : List Update} {t : Tables} {u : Update} (h : Posted c start us t)
      (takes : u.Takes c t) : Posted c start (us ++ [u]) (u.apply c t)

/-- The updates performed so far: the calls that returned `1`, in order. -/
def Sys.updates {env : Env} (s : Sys env) : List Update :=
  s.log.filterMap fun l => performed l.event

/-- The quantity is there and within `0 .. INT_MAX`. -/
def Row.InRange (r : Row) : Prop :=
  ∃ a, r.availableQuantity = some a ∧ 0 ≤ a ∧ a ≤ INT_MAX

/-- What an update adds to a row of one table. -/
def Update.amountTo (c : Collation) (k : Table) (r : Row) (u : Update) : Int :=
  if u.table = k ∧ u.Names c r then u.quantity else 0

/-- What a list of updates adds to a row: the credits and restocks that name
it less the debits that do. -/
def moved (c : Collation) (k : Table) (r : Row) (us : List Update) : Int :=
  (us.map (Update.amountTo c k r)).sum

theorem moved_snoc (c : Collation) (k : Table) (r : Row) (us : List Update) (u : Update) :
    moved c k r (us ++ [u]) = moved c k r us + u.amountTo c k r := by
  simp [moved]

theorem Row.add_add (r : Row) (m n : Int) : (r.add m).add n = r.add (m + n) := by
  obtain ⟨id, name, q⟩ := r
  cases q <;> simp [Row.add, Int.add_assoc]

theorem Row.add_zero (r : Row) : r.add 0 = r := by
  obtain ⟨id, name, q⟩ := r
  cases q <;> simp [Row.add]

theorem Row.names_add {c : Collation} {id : Int} {product : String} (r : Row) (m : Int) :
    (r.add m).names c id product = r.names c id product := Row.names_congr rfl rfl

/-! ## Runs are lists of updates -/

/-- A step performs one update or none. -/
theorem Sys.step_updates {env : Env} {s s' : Sys env} {e : Event} (h : s.step e = some s') :
    (s'.shared.tables = s.shared.tables ∧ s'.updates = s.updates) ∨
      ∃ u, u.Takes env.collation s.shared.tables ∧
        s'.shared.tables = u.apply env.collation s.shared.tables ∧
        s'.updates = s.updates ++ [u] := by
  obtain ⟨htables, hlog⟩ | ⟨who, ok, origin, buffer, ⟨o, r⟩, -, hr, htables, hlog⟩ := step_tables h
  · exact .inl ⟨htables, by rw [updates, hlog]; rfl⟩
  · have hupdates : s'.updates = s.updates ++ (performed ⟨o, r⟩).toList := by
      rw [updates, hlog, List.filterMap_append]
      cases hp : performed ⟨o, r⟩ <;> simp [updates, hp]
    simp only at hr htables
    subst hr
    obtain ⟨u, hp, -, -, htakes, happly⟩ | ⟨hp, hsame, -⟩ := answer_update env ok s.shared o
    · exact .inr ⟨u, htakes, htables.trans happly, hupdates.trans (by rw [hp]; rfl)⟩
    · exact .inl ⟨htables.trans hsame, hupdates.trans (by rw [hp]; exact List.append_nil _)⟩

/-- Every run is the list of the updates it performed. -/
theorem Sys.run_posted {env : Env} {tables : Tables} {es : List Event} {s : Sys env}
    (hrun : (Sys.start tables).run es = some s) :
    Posted env.collation tables s.updates s.shared.tables := by
  refine runSteps_invariant (I := fun s : Sys env =>
    Posted env.collation tables s.updates s.shared.tables) (fun s e s' hI h => ?_) .nil hrun
  obtain ⟨htables, hupdates⟩ | ⟨u, htakes, htables, hupdates⟩ := step_updates h
  · rwa [htables, hupdates]
  · rw [htables, hupdates]
    exact hI.snoc htakes

/-! ## What a list of updates does to a row -/

section

variable {c : Collation} {k : Table} {u : Update}

/-- An update that takes effect adds its quantity to the one row it names, and
leaves the others as they are. -/
theorem Update.Takes.onRow_add {start t : Tables} {us : List Update}
    (hone : OneRowEach c (start.rows k))
    (hrows : t.rows k = (start.rows k).map fun r => r.add (moved c k r us)) (htakes : u.Takes c t)
    (hk : k = u.table) {r : Row} (hr : r ∈ start.rows k) :
    u.onRow c (r.add (moved c k r us)) = r.add (moved c k r (us ++ [u])) := by
  rw [moved_snoc, Update.amountTo]
  by_cases hn : u.Names c r
  · -- The row the update accepts is the one it names.
    obtain ⟨_, ⟨x, hx, ha⟩, _⟩ := htakes
    rw [← hk, hrows] at hx
    obtain ⟨r₀, hr₀, rfl⟩ := List.mem_map.1 hx
    have hn₀ : u.Names c r₀ := by
      have := ha.names
      rwa [Update.Names, Row.names_add] at this
    obtain rfl := hone.eq_of_names hr hr₀ hn hn₀
    rw [Update.onRow_of_accepts ha, if_pos ⟨hk.symm, hn⟩, Row.add_add]
  · have hnot : ¬ u.Accepts c (r.add (moved c k r us)) := fun ha => by
      have := ha.names
      rw [Update.Names, Row.names_add] at this
      exact hn this
    rw [Update.onRow_of_not_accepts hnot, if_neg fun h => hn h.2, Int.add_zero]

/-- A row of a table after a list of updates is the initial row with what the
updates added to it. -/
theorem Posted.rows_eq {start t : Tables} {us : List Update} (h : Posted c start us t)
    (hone : OneRowEach c (start.rows k)) :
    t.rows k = (start.rows k).map fun r => r.add (moved c k r us) := by
  induction h with
  | nil => simp [moved, Row.add_zero]
  | @snoc us t u _ htakes ih =>
    rw [Update.apply_rows]
    split
    · next hk =>
      conv_lhs => rw [ih]
      rw [List.map_map]
      exact List.map_congr_left fun r hr => htakes.onRow_add hone ih hk hr
    · next hk =>
      rw [ih]
      refine List.map_congr_left fun r _ => ?_
      rw [moved_snoc, Update.amountTo, if_neg fun h => hk h.1.symm, Int.add_zero]

/-- An update that takes effect keeps a quantity in range. -/
theorem Update.Takes.onRow_inRange {t : Tables} (htakes : u.Takes c t) {r : Row}
    (hr : r ∈ t.rows u.table) (hrange : r.InRange) : (u.onRow c r).InRange := by
  by_cases ha : u.Accepts c r
  · obtain ⟨a, hq, h0, hmax⟩ := hrange
    obtain ⟨_, a', hq', hguard⟩ := Row.accepts_iff.1 ha
    obtain rfl : a = a' := Option.some.inj (hq.symm.trans hq')
    have hfits : IsInt (a + u.quantity) := by
      have := htakes.2.2 r hr ha
      simpa [Row.fits, hq] using this
    rw [Update.onRow_of_accepts ha]
    exact ⟨a + u.quantity, by simp [Row.add, hq], hguard, hfits.2⟩
  · rwa [Update.onRow_of_not_accepts ha]

theorem Posted.inRange {start t : Tables} {us : List Update} (h : Posted c start us t)
    (hrange : ∀ r ∈ start.rows k, r.InRange) : ∀ r ∈ t.rows k, r.InRange := by
  induction h with
  | nil => exact hrange
  | snoc _ htakes ih =>
    intro r hr
    rw [Update.apply_rows] at hr
    split at hr
    · next hk =>
      obtain ⟨x, hx, rfl⟩ := List.mem_map.1 hr
      exact htakes.onRow_inRange (hk ▸ hx) (ih x hx)
    · exact ih r hr

end

/-- **Inventory integrity.** In every state of every run of the server, the rows
are the initial ones, each with the amounts of the update calls naming it that
returned `1` added, and every quantity is within `0 .. INT_MAX`. -/
theorem inventory_integrity {env : Env} {tables : Tables}
    (hone : ∀ k, OneRowEach env.collation (tables.rows k))
    (hrange : ∀ k, ∀ r ∈ tables.rows k, r.InRange) {es : List Event} {s : Sys env}
    (hrun : (Sys.start tables).run es = some s) (k : Table) :
    s.shared.tables.rows k =
        (tables.rows k).map (fun r => r.add (moved env.collation k r s.updates)) ∧
      ∀ r ∈ s.shared.tables.rows k, r.InRange :=
  ⟨(Sys.run_posted hrun).rows_eq (hone k), (Sys.run_posted hrun).inRange (hrange k)⟩

theorem waterTables_one (c : Collation) (quantity : Int) (k : Table) :
    OneRowEach c ((waterTables quantity).rows k) := by
  cases k <;> exact List.pairwise_singleton _ _

theorem waterTables_inRange {quantity : Int} (h0 : 0 ≤ quantity) (hmax : quantity ≤ INT_MAX)
    (k : Table) : ∀ r ∈ (waterTables quantity).rows k, r.InRange := by
  cases k with
  | hubs => exact fun r hr => List.mem_singleton.1 hr ▸ ⟨0, rfl, by decide, by decide⟩
  | warehouses => exact fun r hr => List.mem_singleton.1 hr ▸ ⟨quantity, rfl, h0, hmax⟩

/-- A server that handles one order: its debit is the one update. -/
theorem inventory_integrity_externalOrder :
    ∃ s : Sys (.reading [(externalOrderText, externalOrder)]),
      (Sys.start (waterTables 500)).run (.datagram ⟨⟨127, 0, 0, 1⟩, 5000⟩ externalOrderText ::
        List.replicate 9 (.proceed .udp true)) = some s ∧
      s.updates = [⟨.warehouses, 1, "Water", -25⟩] ∧
      s.shared.tables.rows .warehouses = ((waterTables 500).rows .warehouses).map
        (fun r => r.add (moved .caseless .warehouses r s.updates)) ∧
      ∀ r ∈ s.shared.tables.rows .warehouses, r.InRange := by
  have hupdates : ((Sys.start (waterTables 500) :
      Sys (.reading [(externalOrderText, externalOrder)])).run
      (.datagram ⟨⟨127, 0, 0, 1⟩, 5000⟩ externalOrderText ::
        List.replicate 9 (.proceed .udp true))).map Sys.updates =
      some [⟨.warehouses, 1, "Water", -25⟩] := by
    decide +kernel
  obtain ⟨s, hrun, hs⟩ := Option.map_eq_some_iff.1 hupdates
  exact ⟨s, hrun, hs, inventory_integrity (waterTables_one _ 500)
    (waterTables_inRange (by decide) (by decide)) hrun .warehouses⟩

end LogisticService
