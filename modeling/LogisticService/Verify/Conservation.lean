import LogisticService.Server.Requests
import LogisticService.Verify.Integrity
import LogisticService.Verify.Transfer
import Mathlib.Algebra.BigOperators.Group.List.Basic
import Mathlib.Algebra.GroupWithZero.Nat
import Mathlib.Algebra.Ring.Int.Defs

/-!
# What a successful transfer does

A transfer that returns a positive value has run its debit, and its credit when
the destination has a table; each took effect. On tables with one row per
location and product, each of these updates is a change of one row, so the
whole transfer is known row by row, and the stock of both tables together is
what it was when there is a credit.
-/

namespace LogisticService

open Effects

/-- The units a row holds, and none where the column is NULL. -/
def Row.units (r : Row) : Int := r.availableQuantity.getD 0

/-- The units in both tables. -/
def Tables.units (t : Tables) : Int :=
  (t.hubs.map Row.units).sum + (t.warehouses.map Row.units).sum

namespace Transfer

variable (c : Collation) (t : Transfer) (k : Table) (r : Row)

/-- The row is the one the order draws from. -/
def isSource : Bool := t.debit.any fun d => d.table = k ∧ d.Names c r

/-- The row is the one the order brings to. -/
def isDestination : Bool := t.credit.any fun u => u.table = k ∧ u.Names c r

/-- A row after the transfer. -/
def moves : Row :=
  if t.isSource c k r && !t.isDestination c k r then r.add (-t.quantity)
  else if t.isDestination c k r && !t.isSource c k r then r.add t.quantity
  else r

/-- What the transfer did to the tables, and what they held for it. -/
structure Effect (before after : Tables) : Prop where
  /-- The source row held the quantity. -/
  held : ∃ k, ∃ r ∈ before.rows k, t.isSource c k r = true ∧
    ∃ a, r.availableQuantity = some a ∧ t.quantity ≤ a
  /-- A destination of one of the tables has a row. -/
  received : t.credit.isSome = true → ∃ k, ∃ r ∈ before.rows k, t.isDestination c k r = true
  /-- The source row is lower, the destination row higher, every other as it was. -/
  rows : ∀ k, after.rows k = (before.rows k).map (t.moves c k)
  total : t.credit.isSome = true → after.units = before.units
  aliased : (∃ k, ∃ r ∈ before.rows k, t.isSource c k r = true ∧ t.isDestination c k r = true) →
    after = before

end Transfer

/-! ## The units in the tables -/

theorem Row.units_add {r : Row} (h : r.InRange) (n : Int) : (r.add n).units = r.units + n := by
  obtain ⟨a, hq, _⟩ := h
  rw [units, units, add, hq]
  rfl

/-- An update that takes effect adds its quantity to the units. -/
theorem Update.Takes.units {c : Collation} {u : Update} {t : Tables} (htakes : u.Takes c t)
    (hone : OneRowEach c (t.rows u.table)) (hrange : ∀ r ∈ t.rows u.table, r.InRange) :
    (u.apply c t).units = t.units + u.quantity := by
  obtain ⟨_, ⟨r, hr, ha⟩, _⟩ := htakes
  obtain ⟨i, hi⟩ := List.mem_iff_getElem?.1 hr
  obtain ⟨hlt, hget⟩ := List.getElem?_eq_some_iff.1 hi
  have hset : (t.rows u.table).map (u.onRow c) = (t.rows u.table).set i (r.add u.quantity) :=
    Update.map_onRow_eq_set hi ha fun j r' hj ha' => hone.unique hj hi ha'.names ha.names
  have hsum : (((t.rows u.table).set i (r.add u.quantity)).map Row.units).sum =
      ((t.rows u.table).map Row.units).sum + u.quantity := by
    rw [List.map_set, List.sum_set', dif_pos (by simpa using hlt), List.getElem_map, hget,
      Row.units_add (hrange r hr)]
    omega
  unfold Tables.units apply
  rw [hset]
  cases htable : u.table with
  | hubs =>
    rw [htable] at hsum
    simp only [Tables.setRows]
    exact (congrArg (· + _) hsum).trans (Int.add_right_comm _ _ _)
  | warehouses =>
    rw [htable] at hsum
    simp only [Tables.setRows]
    exact (congrArg (_ + ·) hsum).trans (Int.add_assoc _ _ _).symm

/-- Updates keep one row per location and product. -/
theorem Posted.one {c : Collation} {start t : Tables} {us : List Update} {k : Table}
    (h : Posted c start us t) (hone : OneRowEach c (start.rows k)) : OneRowEach c (t.rows k) := by
  induction h with
  | nil => exact hone
  | @snoc us t u _ _ ih =>
    rw [Update.apply_rows]
    split
    · exact ih.updated _ _ _
    · exact ih

/-- A run of updates adds what they add together. -/
theorem Posted.units_eq {c : Collation} {start t : Tables} {us : List Update}
    (h : Posted c start us t) (hone : ∀ k, OneRowEach c (start.rows k))
    (hrange : ∀ k, ∀ r ∈ start.rows k, r.InRange) :
    t.units = start.units + (us.map Update.quantity).sum := by
  induction h with
  | nil => simp
  | @snoc us t u hposted htakes ih =>
    rw [htakes.units (hposted.one (hone u.table)) (hposted.inRange (hrange u.table)), ih,
      List.map_append, List.sum_append]
    simp [Int.add_assoc]

theorem Posted.nil_inv {c : Collation} {start t : Tables} (h : Posted c start [] t) :
    t = start := by
  generalize hus : [] = us at h
  cases h with
  | nil => rfl
  | snoc => simp at hus

/-- The first update took effect on the initial tables. -/
theorem Posted.head {c : Collation} {start t : Tables} {u : Update} {us : List Update}
    (h : Posted c start (u :: us) t) : u.Takes c start := by
  generalize hus : u :: us = all at h
  induction h generalizing us with
  | nil => cases hus
  | @snoc us' t u' hposted htakes ih =>
    cases us' with
    | nil =>
      obtain rfl := hposted.nil_inv
      obtain ⟨rfl, _⟩ := List.cons.inj hus
      exact htakes
    | cons x rest =>
      obtain ⟨rfl, _⟩ := List.cons.inj hus
      exact ih rfl

/-- Every update named a row of the initial tables. -/
theorem Posted.named {c : Collation} {start t : Tables} {us : List Update}
    (h : Posted c start us t) (hone : ∀ k, OneRowEach c (start.rows k)) {u : Update} (hu : u ∈ us) :
    ∃ r ∈ start.rows u.table, u.Names c r := by
  induction h with
  | nil => cases hu
  | @snoc us t u' hposted htakes ih =>
    rcases List.mem_append.1 hu with hold | hnew
    · exact ih hold
    · obtain rfl := List.mem_singleton.1 hnew
      obtain ⟨_, ⟨x, hx, ha⟩, _⟩ := htakes
      rw [hposted.rows_eq (hone u.table)] at hx
      obtain ⟨r, hr, rfl⟩ := List.mem_map.1 hx
      have hnames := ha.names
      rw [Update.Names, Row.names_add] at hnames
      exact ⟨r, hr, hnames⟩

/-! ## The updates of a transfer -/

namespace Transfer

variable {c : Collation} {t : Transfer} {k : Table} {r : Row}

/-- A transfer that succeeds has run its debit and its credit. -/
theorem perform_posted {env : Env} {s s' : Alone} {v : Int}
    (hrun : runAlone env t.perform s = (.ok v, s')) (hv : 0 < v) :
    ∃ d, t.debit = some d ∧
      Posted env.collation s.1.tables (d :: t.credit.toList) s'.1.tables := by
  cases hd : t.debit with
  | none =>
    rw [perform_of_no_debit hd] at hrun
    cases hrun
    exact absurd hv (by decide)
  | some d =>
    refine ⟨d, rfl, ?_⟩
    rw [perform_of_debit hd] at hrun
    obtain ⟨w, s₁, hdebit, ⟨rfl, _, htakes, htables⟩ | ⟨rfl, _⟩⟩ := d.call_alone env s
    · rw [runAlone_bind_of_ok hdebit, if_pos (by decide)] at hrun
      have hposted : Posted env.collation s.1.tables [d] s₁.tables := htables ▸ .snoc .nil htakes
      cases hk : t.credit with
      | none =>
        rw [hk] at hrun
        cases hrun
        exact hposted
      | some u =>
        rw [hk] at hrun
        obtain ⟨w, s₂, hcredit, ⟨rfl, _, htakes', htables'⟩ | ⟨rfl, _⟩⟩ :=
          u.call_alone env (s₁, s.2.tail)
        · cases hcredit.symm.trans hrun
          exact htables' ▸ hposted.snoc htakes'
        · cases hcredit.symm.trans hrun
          exact absurd hv (by decide)
    · rw [runAlone_bind_of_ok hdebit, if_neg (by decide)] at hrun
      cases hrun
      exact absurd hv (by decide)

theorem isSource_iff {d : Update} (hd : t.debit = some d) :
    t.isSource c k r = true ↔ d.table = k ∧ d.Names c r := by
  simp [isSource, hd]

theorem isDestination_iff {u : Update} (hu : t.credit = some u) :
    t.isDestination c k r = true ↔ u.table = k ∧ u.Names c r := by
  simp [isDestination, hu]

/-- What the two updates add to a row is what the transfer makes of it. -/
theorem moves_eq {d : Update} (hd : t.debit = some d) :
    r.add (moved c k r (d :: t.credit.toList)) = t.moves c k r := by
  have hq : d.quantity = -t.quantity := (Update.ofType_some hd).2.2.1
  have hdebit : d.amountTo c k r = if t.isSource c k r then -t.quantity else 0 := by
    simp only [Update.amountTo, isSource_iff hd, hq]
  have hcredit : moved c k r t.credit.toList =
      if t.isDestination c k r then t.quantity else 0 := by
    cases hu : t.credit with
    | none => simp [moved, isDestination, hu]
    | some u =>
      have hq' : u.quantity = t.quantity := (Update.ofType_some hu).2.2.1
      simp [moved, Update.amountTo, isDestination_iff hu, hq']
  have hsum : moved c k r (d :: t.credit.toList) =
      d.amountTo c k r + moved c k r t.credit.toList := by
    simp [moved]
  rw [hsum, hdebit, hcredit]
  unfold moves
  cases t.isSource c k r <;> cases t.isDestination c k r <;> simp [Row.add_zero]

/-- **A successful transfer has its effect and no other.** -/
theorem effect_of_posted {before after : Tables} {d : Update} (hd : t.debit = some d)
    (hone : ∀ k, OneRowEach c (before.rows k)) (hrange : ∀ k, ∀ r ∈ before.rows k, r.InRange)
    (hposted : Posted c before (d :: t.credit.toList) after) : t.Effect c before after := by
  obtain ⟨_, _, hq, _⟩ := Update.ofType_some hd
  have hrows : ∀ k, after.rows k = (before.rows k).map (t.moves c k) := fun k => by
    rw [hposted.rows_eq (hone k)]
    exact List.map_congr_left fun r _ => moves_eq hd
  refine ⟨?_, fun hcredit => ?_, hrows, fun hcredit => ?_, fun ⟨k, r, hr, hsource, hdest⟩ => ?_⟩
  · obtain ⟨_, ⟨r, hr, ha⟩, _⟩ := hposted.head
    obtain ⟨hnames, a, hqa, hguard⟩ := Row.accepts_iff.1 ha
    exact ⟨d.table, r, hr, (isSource_iff hd).2 ⟨rfl, hnames⟩, a, hqa, by omega⟩
  · obtain ⟨u, hu⟩ := Option.isSome_iff_exists.1 hcredit
    obtain ⟨r, hr, hnames⟩ := hposted.named hone (u := u) (by simp [hu])
    exact ⟨u.table, r, hr, (isDestination_iff hu).2 ⟨rfl, hnames⟩⟩
  · obtain ⟨u, hu⟩ := Option.isSome_iff_exists.1 hcredit
    have hq' : u.quantity = t.quantity := (Update.ofType_some hu).2.2.1
    rw [hposted.units_eq hone hrange, hu]
    simp [hq, hq']
  · -- The row both sides name is the only one either of them names.
    obtain ⟨u, hu⟩ : ∃ u, t.credit = some u := by
      cases hu : t.credit with
      | none => simp [isDestination, hu] at hdest
      | some u => exact ⟨u, rfl⟩
    obtain ⟨hk, hnames⟩ := (isSource_iff hd).1 hsource
    obtain ⟨hk', hnames'⟩ := (isDestination_iff hu).1 hdest
    have hself : ∀ k', after.rows k' = before.rows k' := by
      intro k'
      rw [hrows k']
      refine (List.map_congr_left fun x hx => ?_).trans (List.map_id _)
      have hsame : t.isSource c k' x = t.isDestination c k' x := by
        rw [Bool.eq_iff_iff, isSource_iff hd, isDestination_iff hu]
        subst hk
        constructor
        · rintro ⟨rfl, hx'⟩
          obtain rfl := (hone _).eq_of_names hx hr hx' hnames
          exact ⟨hk', hnames'⟩
        · rintro ⟨rfl, hx'⟩
          rw [← hk'] at hr
          obtain rfl := (hone _).eq_of_names hx hr hx' hnames'
          exact ⟨hk'.symm, hnames⟩
      unfold moves
      rw [hsame]
      cases t.isDestination c k' x <;> rfl
    have hhubs := hself .hubs
    have hwarehouses := hself .warehouses
    cases after
    cases before
    simp only [Tables.rows] at hhubs hwarehouses
    rw [hhubs, hwarehouses]

end Transfer

/-- **A successful transfer has exactly its effect**, on tables with one row
per location and product and quantities within `0 .. INT_MAX`, for every order
whose fields convert. -/
theorem realTimeUpdate_effect {env : Env} {request : Value} {t : Transfer} {s s' : Alone} {v : Int}
    (hone : ∀ k, OneRowEach env.collation (s.1.tables.rows k))
    (hrange : ∀ k, ∀ r ∈ s.1.tables.rows k, r.InRange)
    (ht : Transfer.ofJson request = .ok t)
    (hrun : runAlone env (realTimeUpdate request) s = (.ok v, s')) (hv : 0 < v) :
    t.Effect env.collation s.1.tables s'.1.tables := by
  rw [realTimeUpdate_of_transfer ht] at hrun
  obtain ⟨d, hd, hposted⟩ := Transfer.perform_posted hrun hv
  exact Transfer.effect_of_posted hd hone hrange hposted

/-- Fifty units from the warehouse to the hub. -/
def hubOrder : Value := waterOrder [("location", .int 1), ("type", .string "hub")] 50

theorem realTimeUpdate_effect_hubOrder : ∃ (t : Transfer) (s' : Alone),
    Transfer.ofJson hubOrder = .ok t ∧
      t.Effect .caseless (waterTables 500) s'.1.tables := by
  have hrun : runAlone (.reading []) (realTimeUpdate hubOrder) (.start (waterTables 500), []) =
      (.ok 1, (runAlone (.reading []) (realTimeUpdate hubOrder)
        (.start (waterTables 500), [])).2) :=
    Prod.ext (by decide +kernel) rfl
  exact ⟨⟨"warehouse", 1, "hub", 1, "Water", 50⟩, _, rfl,
    realTimeUpdate_effect (waterTables_one _ 500) (waterTables_inRange (by decide) (by decide)) rfl
      hrun (by decide)⟩

end LogisticService
