import LogisticService.Inventory.Db

/-!
# Updates of the inventory

The four places that change stock (both sides of a transfer, each on either
table) all come down to one statement with a table, a location, a product and
a quantity. `Update` is that statement, `Update.Takes` says when it changes a
row, and `performed` reads off an answered operation which update it was, when
the call returned `1`. Whatever operation is answered, the tables change by
the update it performed and by nothing else (`answer_update`).
-/

namespace LogisticService

open Effects

inductive Table
  | hubs
  | warehouses
deriving DecidableEq

def Tables.rows (t : Tables) : Table → List Row
  | .hubs => t.hubs
  | .warehouses => t.warehouses

def Tables.setRows (t : Tables) (k : Table) (rows : List Row) : Tables :=
  match k with
  | .hubs => { t with hubs := rows }
  | .warehouses => { t with warehouses := rows }

theorem Tables.rows_setRows (t : Tables) (k k' : Table) (rows : List Row) :
    (t.setRows k rows).rows k' = if k' = k then rows else t.rows k' := by
  cases k <;> cases k' <;> rfl

/-- One UPDATE statement with its arguments. -/
structure Update where
  table : Table
  location : Int
  productName : String
  quantity : Int
deriving DecidableEq

namespace Update

/-- The statement selects the row but for its guard. -/
def Names (c : Collation) (u : Update) (r : Row) : Prop :=
  r.names c u.location u.productName = true

/-- The statement selects the row. -/
def Accepts (c : Collation) (u : Update) (r : Row) : Prop :=
  r.accepts c u.location u.productName u.quantity = true

instance (c : Collation) (u : Update) (r : Row) : Decidable (u.Names c r) :=
  inferInstanceAs (Decidable (_ = _))

instance (c : Collation) (u : Update) (r : Row) : Decidable (u.Accepts c r) :=
  inferInstanceAs (Decidable (_ = _))

/-- The statement changes a row: it selects one, and every row it selects
stays within the column's range. -/
def Takes (c : Collation) (u : Update) (t : Tables) : Prop :=
  u.quantity ≠ 0 ∧ (∃ r ∈ t.rows u.table, u.Accepts c r) ∧
    ∀ r ∈ t.rows u.table, u.Accepts c r → r.fits u.quantity = true

instance (c : Collation) (u : Update) (t : Tables) : Decidable (u.Takes c t) :=
  inferInstanceAs (Decidable (_ ∧ _ ∧ _))

/-- A row after the statement. -/
def onRow (c : Collation) (u : Update) : Row → Row :=
  Row.updated c u.location u.productName u.quantity

/-- The tables after the statement. -/
def apply (c : Collation) (u : Update) (t : Tables) : Tables :=
  t.setRows u.table ((t.rows u.table).map (u.onRow c))

/-- The function of `inventoryDb.cpp` that runs the statement. -/
def call (u : Update) : Handling Int :=
  match u.table with
  | .hubs => updateHubInventory u.location u.productName u.quantity
  | .warehouses => updateWarehouseInventory u.location u.productName u.quantity

/-- The statement that the location type of an order names. -/
def ofType (type : String) (location : Int) (productName : String) (quantity : Int) :
    Option Update :=
  if type = "hub" then some ⟨.hubs, location, productName, quantity⟩
  else if type = "warehouse" then some ⟨.warehouses, location, productName, quantity⟩
  else none

variable {c : Collation} {u : Update} {t : Tables} {r : Row}

theorem Accepts.names (h : u.Accepts c r) : u.Names c r := (Row.accepts_iff.1 h).1

theorem onRow_of_accepts (h : u.Accepts c r) : u.onRow c r = r.add u.quantity :=
  Row.updated_of_accepts h

theorem onRow_of_not_accepts (h : ¬ u.Accepts c r) : u.onRow c r = r :=
  Row.updated_of_not_accepts h

/-- The quantity of a row after the statement. -/
theorem onRow_quantity {b : Int}
    (h : (u.onRow c r).availableQuantity = some b) :
    r.availableQuantity = some b ∨
      ∃ a, u.Accepts c r ∧ r.availableQuantity = some a ∧ b = a + u.quantity := by
  by_cases ha : u.Accepts c r
  · rw [onRow_of_accepts ha] at h
    obtain ⟨a, hq, rfl⟩ := Option.map_eq_some_iff.1 h
    exact .inr ⟨a, ha, hq, rfl⟩
  · rw [onRow_of_not_accepts ha] at h
    exact .inl h

@[simp] theorem names_onRow {id : Int} {product : String} :
    (u.onRow c r).names c id product = r.names c id product := Row.names_updated

/-- The statement changes the rows of its own table only. -/
theorem apply_rows (c : Collation) (u : Update) (t : Tables) (k : Table) : (u.apply c t).rows k =
    if k = u.table then (t.rows k).map (u.onRow c) else t.rows k := by
  rw [apply, Tables.rows_setRows]
  split
  · next hk => rw [hk]
  · rfl

/-- A statement that adds nothing leaves every row as it is. -/
theorem onRow_of_zero (h : u.quantity = 0) : u.onRow c r = r := by
  by_cases ha : u.Accepts c r
  · rw [onRow_of_accepts ha, h]
    obtain ⟨id, name, q⟩ := r
    cases q <;> simp [Row.add]
  · exact onRow_of_not_accepts ha

/-- A statement that adds nothing or selects no row leaves the rows as they are. -/
theorem map_onRow_self {rows : List Row}
    (h : ¬ (u.quantity ≠ 0 ∧ ∃ r ∈ rows, u.Accepts c r)) : rows.map (u.onRow c) = rows := by
  refine (List.map_congr_left fun r hr => ?_).trans (List.map_id _)
  by_cases hzero : u.quantity = 0
  · exact onRow_of_zero hzero
  · exact onRow_of_not_accepts fun ha => h ⟨hzero, r, hr, ha⟩

/-- A statement that selects one row adds to that row. -/
theorem map_onRow_eq_set {rows : List Row} {i : Nat} (hi : rows[i]? = some r) (ha : u.Accepts c r)
    (honly : ∀ j r', rows[j]? = some r' → u.Accepts c r' → j = i) :
    rows.map (u.onRow c) = rows.set i (r.add u.quantity) := by
  apply List.ext_getElem?
  intro j
  rw [List.getElem?_map]
  by_cases hj : j = i
  · subst hj
    rw [hi, List.getElem?_set_self (List.getElem?_eq_some_iff.1 hi).1, Option.map_some,
      onRow_of_accepts ha]
  · rw [List.getElem?_set_ne fun h => hj h.symm]
    cases hr : rows[j]? with
    | none => rfl
    | some r' =>
      rw [Option.map_some, onRow_of_not_accepts fun h => hj (honly j r' hr h)]

/-- A statement that takes effect does change the tables. -/
theorem Takes.apply_ne (h : u.Takes c t) : u.apply c t ≠ t := by
  obtain ⟨hne, ⟨r, hr, ha⟩, _⟩ := h
  intro heq
  obtain ⟨_, a, hq, _⟩ := Row.accepts_iff.1 ha
  have hrows : (t.rows u.table).map (u.onRow c) = t.rows u.table := by
    have happly := apply_rows c u t u.table
    rwa [heq, if_pos rfl, eq_comm] at happly
  have hfix : u.onRow c r = r := List.map_inj_left.1 (hrows.trans (List.map_id _).symm) r hr
  rw [onRow_of_accepts ha] at hfix
  have hquantity := congrArg Row.availableQuantity hfix
  simp only [Row.add, hq, Option.map_some, Option.some.injEq] at hquantity
  omega

end Update

/-- The update an operation asks for. -/
def Operation.update? : Operation → Option Update
  | .updateHubInventory hubId productName quantity => some ⟨.hubs, hubId, productName, quantity⟩
  | .updateWarehouseInventory warehouseId productName quantity =>
    some ⟨.warehouses, warehouseId, productName, quantity⟩
  | _ => none

/-- The update an answered operation performed: the call returned `1`. -/
def performed : Answered Server → Option Update
  | ⟨.updateHubInventory hubId productName quantity, n⟩ =>
    if updateResult n = 1 then some ⟨.hubs, hubId, productName, quantity⟩ else none
  | ⟨.updateWarehouseInventory warehouseId productName quantity, n⟩ =>
    if updateResult n = 1 then some ⟨.warehouses, warehouseId, productName, quantity⟩ else none
  | _ => none

theorem updateResult_eq_one {n : Option Nat} : updateResult n = 1 ↔ ∃ m, n = some m ∧ 0 < m := by
  cases n with
  | none => simp [updateResult]
  | some m =>
    simp only [updateResult, Option.some.injEq, exists_eq_left']
    split <;> simp_all

theorem updateResult_cases (n : Option Nat) : updateResult n = 1 ∨ updateResult n = -1 := by
  cases n with
  | none => exact .inr rfl
  | some m =>
    simp only [updateResult]
    split
    · exact .inl rfl
    · exact .inr rfl

/-- The statement as its table answers it: it takes effect and the call
returns `1`, or the rows stay as they are and it returns `-1`. -/
theorem answerUpdate_cases (c : Collation) (ok : Bool) (u : Update) (t : Tables) :
    let r := answerUpdate ok (t.rows u.table)
      (updateRows c u.location u.productName u.quantity (t.rows u.table))
    (updateResult r.1 = 1 ∧ ok = true ∧ u.Takes c t ∧ r.2 = (t.rows u.table).map (u.onRow c)) ∨
      (updateResult r.1 = -1 ∧ ¬ (ok = true ∧ u.Takes c t) ∧ r.2 = t.rows u.table) := by
  intro r
  cases ok with
  | false => exact .inr ⟨rfl, by simp, rfl⟩
  | true =>
    cases hrows : updateRows c u.location u.productName u.quantity (t.rows u.table) with
    | none =>
      obtain ⟨x, hx, ha, hf⟩ := updateRows_none hrows
      refine .inr ⟨by simp [r, hrows, answerUpdate, updateResult], fun ⟨_, htakes⟩ => ?_,
        by simp [r, hrows, answerUpdate]⟩
      exact absurd (htakes.2.2 x hx ha) (by simp [hf])
    | some res =>
      obtain ⟨rows', n⟩ := res
      obtain ⟨hmap, hfits, hcount⟩ := updateRows_some hrows
      have hr : r = (some n, rows') := by simp [r, hrows, answerUpdate]
      by_cases hn : 0 < n
      · obtain ⟨hne, hex⟩ := hcount.1 hn
        refine .inl ⟨?_, rfl, ⟨hne, hex, hfits⟩, by rw [hr, hmap]; rfl⟩
        rw [hr]; exact updateResult_eq_one.2 ⟨n, rfl, hn⟩
      · refine .inr ⟨?_, fun ⟨_, htakes⟩ => hn (hcount.2 ⟨htakes.1, htakes.2.1⟩), ?_⟩
        · rw [hr]; simp [updateResult, hn]
        · rw [hr]
          exact hmap.trans (Update.map_onRow_self fun hmoves => hn (hcount.2 hmoves))

/-- What an operation does to the tables: it performs one update, which takes
effect, or it performs none and leaves them alone. -/
theorem answer_update (env : Env) (ok : Bool) (s : Shared) (o : Operation) :
    (∃ u, performed ⟨o, (answer env ok s o).1⟩ = some u ∧ o.update? = some u ∧ ok = true ∧
        u.Takes env.collation s.tables ∧
        (answer env ok s o).2.tables = u.apply env.collation s.tables) ∨
      (performed ⟨o, (answer env ok s o).1⟩ = none ∧ (answer env ok s o).2.tables = s.tables ∧
        ∀ u, o.update? = some u → ¬ (ok = true ∧ u.Takes env.collation s.tables)) := by
  cases o with
  | updateHubInventory hubId productName quantity =>
    rcases answerUpdate_cases env.collation ok ⟨.hubs, hubId, productName, quantity⟩ s.tables with
      ⟨hone, hok, htakes, hrows⟩ | ⟨hone, hnot, hrows⟩
    · refine .inl ⟨_, if_pos hone, rfl, hok, htakes, ?_⟩
      exact congrArg (fun rows => { s.tables with hubs := rows }) hrows
    · refine .inr ⟨if_neg ?_, ?_, fun u hu => ?_⟩
      · exact fun h => absurd (h.symm.trans hone) (by decide)
      · exact congrArg (fun rows => { s.tables with hubs := rows }) hrows
      · cases hu; exact hnot
  | updateWarehouseInventory warehouseId productName quantity =>
    rcases answerUpdate_cases env.collation ok ⟨.warehouses, warehouseId, productName, quantity⟩
      s.tables with ⟨hone, hok, htakes, hrows⟩ | ⟨hone, hnot, hrows⟩
    · refine .inl ⟨_, if_pos hone, rfl, hok, htakes, ?_⟩
      exact congrArg (fun rows => { s.tables with warehouses := rows }) hrows
    · refine .inr ⟨if_neg ?_, ?_, fun u hu => ?_⟩
      · exact fun h => absurd (h.symm.trans hone) (by decide)
      · exact congrArg (fun rows => { s.tables with warehouses := rows }) hrows
      · cases hu; exact hnot
  | _ => exact .inr ⟨rfl, rfl, fun u hu => by cases hu⟩

theorem performed_update {o : Operation} {r : o.Reply} {u : Update}
    (h : performed ⟨o, r⟩ = some u) : o.update? = some u := by
  cases o with
  | updateHubInventory | updateWarehouseInventory =>
    simp only [performed] at h
    split at h
    · exact h
    · cases h
  | _ => cases h

/-- What an update call returns: `1` when it performed its update. -/
def callResult (e : Answered Server) : Int := if performed e = none then -1 else 1

/-- An update call asks for one operation, which is its update. -/
theorem Update.call_eq (u : Update) : ∃ o : Operation, o.update? = some u ∧
    u.call = ask o >>= fun r => .pure (callResult ⟨o, r⟩) := by
  have hresult : ∀ (n : Option Nat) (v : Update),
      updateResult n = if (if updateResult n = 1 then some v else none) = none then -1 else 1 := by
    intro n v
    rcases updateResult_cases n with h | h <;> simp [h]
  obtain ⟨table, location, productName, quantity⟩ := u
  cases table with
  | hubs =>
    refine ⟨.updateHubInventory location productName quantity, rfl, ?_⟩
    exact congrArg (Program.call _) (funext fun n => congrArg Program.pure (hresult n _))
  | warehouses =>
    refine ⟨.updateWarehouseInventory location productName quantity, rfl, ?_⟩
    exact congrArg (Program.call _) (funext fun n => congrArg Program.pure (hresult n _))

/-- An update call made on its own returns `1` and takes effect, or returns
`-1` and changes nothing. -/
theorem Update.call_alone (env : Env) (u : Update) (s : Alone) :
    ∃ v s', runAlone env u.call s = (.ok v, s', s.2.tail) ∧
      ((v = 1 ∧ s.2.headD true = true ∧ u.Takes env.collation s.1.tables ∧
          s'.tables = u.apply env.collation s.1.tables) ∨
        (v = -1 ∧ ¬ (s.2.headD true = true ∧ u.Takes env.collation s.1.tables) ∧
          s'.tables = s.1.tables)) := by
  obtain ⟨o, ho, hcall⟩ := u.call_eq
  refine ⟨callResult ⟨o, (answer env (s.2.headD true) s.1 o).1⟩, _, by rw [hcall]; rfl, ?_⟩
  rcases answer_update env (s.2.headD true) s.1 o with
    ⟨u', hp, hu', hok, htakes, htables⟩ | ⟨hp, htables, hnot⟩
  · obtain rfl : u = u' := Option.some.inj (ho.symm.trans hu')
    exact .inl ⟨if_neg (by simp only [hp, reduceCtorEq, not_false_eq_true]), hok, htakes, htables⟩
  · exact .inr ⟨if_pos hp, hnot u ho, htables⟩

/-- One side of a transfer is the call its location type names, if any. -/
theorem updateInventory_eq (type : String) (location : Int) (product : String)
    (quantity otherwise : Int) : updateInventory type location product quantity otherwise =
      match Update.ofType type location product quantity with
      | some u => u.call
      | none => .pure otherwise := by
  unfold updateInventory Update.ofType
  split
  · rfl
  · split <;> rfl

end LogisticService
