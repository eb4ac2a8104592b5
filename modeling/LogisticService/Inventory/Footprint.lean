import LogisticService.Effects.Interleave
import LogisticService.Server.Updates

/-!
# The rows an operation is about

A stored procedure names the rows of one table by location and product, and
neither reads nor changes any other. `Tables.only K` is what is left of the
tables when the quantities outside a set of rows are blanked. Operations about
rows of the set are answered alike on tables that look the same through it and
leave them so, and operations about other rows do not show through it
(`seen_shielded`).
-/

namespace LogisticService

open Effects

/-- A set of rows, by table, location and product name. -/
abbrev RowSet := Table → Option Int → Option String → Bool

/-- What a statement names: a table, a location and a product. -/
structure Key where
  table : Table
  location : Int
  productName : String
deriving DecidableEq

/-- The rows a key names. -/
def Key.rows (c : Collation) (k : Key) : RowSet := fun table id productName =>
  table = k.table && Row.names c k.location k.productName ⟨id, productName, none⟩

theorem Key.rows_of_names {c : Collation} {k : Key} {r : Row}
    (h : r.names c k.location k.productName = true) :
    k.rows c k.table r.id r.productName = true := by
  have hnames : Row.names c k.location k.productName ⟨r.id, r.productName, none⟩ = true :=
    (Row.names_congr rfl rfl).trans h
  rw [Key.rows, hnames]
  simp

/-- Two keys name one row in common only when they are of one table, one
location and one product. -/
theorem Key.same_of_common {c : Collation} {k k' : Key} {table : Table} {id : Option Int}
    {name : Option String} (h : k.rows c table id name = true)
    (h' : k'.rows c table id name = true) :
    k.table = k'.table ∧ k.location = k'.location ∧
      c.same k.productName k'.productName = true := by
  obtain ⟨htable, hnames⟩ := (Bool.and_eq_true _ _).mp h
  obtain ⟨htable', hnames'⟩ := (Bool.and_eq_true _ _).mp h'
  obtain ⟨hid, p, hp, hsame⟩ := Row.names_iff.1 hnames
  obtain ⟨hid', p', hp', hsame'⟩ := Row.names_iff.1 hnames'
  have htables : k.table = k'.table :=
    (of_decide_eq_true htable).symm.trans (of_decide_eq_true htable')
  have hlocations : k.location = k'.location := Option.some.inj (hid.symm.trans hid')
  have hproducts : p = p' := Option.some.inj (hp.symm.trans hp')
  rw [← hproducts] at hsame'
  exact ⟨htables, hlocations, c.trans (c.symm hsame) hsame'⟩

/-- The key a database call is about. -/
def Operation.key? : Operation → Option Key
  | .getHubInventory productName hubId => some ⟨.hubs, hubId, productName⟩
  | .getWarehouseInventory productName warehouseId => some ⟨.warehouses, warehouseId, productName⟩
  | .updateHubInventory hubId productName _ => some ⟨.hubs, hubId, productName⟩
  | .updateWarehouseInventory warehouseId productName _ =>
    some ⟨.warehouses, warehouseId, productName⟩
  | _ => none

/-! ## Tables through a set of rows -/

/-- The row without its quantity, unless it is in the set. -/
def Row.only (K : RowSet) (table : Table) (r : Row) : Row :=
  if K table r.id r.productName then r else { r with availableQuantity := none }

/-- The tables without the quantities outside the set. -/
def Tables.only (K : RowSet) (t : Tables) : Tables where
  hubs := t.hubs.map (Row.only K .hubs)
  warehouses := t.warehouses.map (Row.only K .warehouses)

section

variable {K : RowSet} {table : Table} {r : Row} {c : Collation} {id : Int} {product : String}
  {quantity : Int} {rows rows' : List Row}

theorem Tables.only_rows (t : Tables) :
    (t.only K).rows table = (t.rows table).map (Row.only K table) := by cases table <;> rfl

theorem Tables.ext_rows {t t' : Tables} (h : ∀ table, t.rows table = t'.rows table) : t = t' := by
  have hhubs : t.hubs = t'.hubs := h .hubs
  have hwarehouses : t.warehouses = t'.warehouses := h .warehouses
  cases t
  cases t'
  cases hhubs
  cases hwarehouses
  rfl

theorem Row.only_of_mem (h : K table r.id r.productName = true) : r.only K table = r := if_pos h

theorem Row.only_key : (r.only K table).id = r.id ∧
    (r.only K table).productName = r.productName := by
  unfold Row.only
  split <;> exact ⟨rfl, rfl⟩

/-- Blanking keeps the names of a row. -/
theorem Row.names_only : (r.only K table).names c id product = r.names c id product :=
  Row.names_congr Row.only_key.1 Row.only_key.2

/-- Tables that look the same through a set and through its complement are the same. -/
theorem Tables.eq_of_only {t t' : Tables} (h : t.only K = t'.only K)
    (h' : t.only (fun table id name => !K table id name) =
      t'.only (fun table id name => !K table id name)) : t = t' := by
  refine Tables.ext_rows fun table => ?_
  have hin : (t.rows table).map (Row.only K table) = (t'.rows table).map (Row.only K table) := by
    rw [← Tables.only_rows, ← Tables.only_rows, h]
  have hout : (t.rows table).map (Row.only (fun table id name => !K table id name) table) =
      (t'.rows table).map (Row.only (fun table id name => !K table id name) table) := by
    rw [← Tables.only_rows, ← Tables.only_rows, h']
  generalize t.rows table = rows at hin hout
  generalize t'.rows table = rows' at hin hout
  induction rows generalizing rows' with
  | nil => exact (List.map_eq_nil_iff.1 hin.symm).symm
  | cons r rows ih =>
    cases rows' with
    | nil => cases hin
    | cons r' rows' =>
      obtain ⟨hr, hrows⟩ := List.cons.inj hin
      obtain ⟨hr', hrows'⟩ := List.cons.inj hout
      have hid : r.id = r'.id := by rw [← @Row.only_key K table r |>.1, hr, Row.only_key.1]
      have hname : r.productName = r'.productName := by
        rw [← @Row.only_key K table r |>.2, hr, Row.only_key.2]
      have hsame : r = r' := by
        by_cases hk : K table r.id r.productName = true
        · rw [Row.only_of_mem hk, Row.only_of_mem (hid ▸ hname ▸ hk)] at hr
          exact hr
        · have hn : (!K table r.id r.productName) = true := by simpa using hk
          rw [Row.only_of_mem (K := fun table id name => !K table id name) hn,
            Row.only_of_mem (K := fun table id name => !K table id name) (hid ▸ hname ▸ hn)] at hr'
          exact hr'
      rw [hsame, ih rows' hrows hrows']

/-! ### Statements about rows of the set -/

/-- A statement about rows of the set finds the same rows when the others are blanked. -/
theorem filter_only {P : Row → Bool} (hnames : ∀ r : Row, P r = true → r.names c id product = true)
    (hK : ∀ r : Row, r.names c id product = true → K table r.id r.productName = true) :
    (rows.map (Row.only K table)).filter P = rows.filter P := by
  induction rows with
  | nil => rfl
  | cons r rows ih =>
    by_cases hr : r.names c id product = true
    · rw [List.map_cons, Row.only_of_mem (hK r hr), List.filter_cons, List.filter_cons, ih]
    · have hnot : ¬ P r = true := fun hP => hr (hnames r hP)
      have hnot' : ¬ P (r.only K table) = true := fun hP => by
        have hn := hnames _ hP
        rw [Row.names_only] at hn
        exact hr hn
      rw [List.map_cons, List.filter_cons_of_neg hnot', List.filter_cons_of_neg hnot, ih]

theorem names_of_accepts (r : Row) (h : r.accepts c id product quantity = true) :
    r.names c id product = true := (Row.accepts_iff.1 h).1

/-- An update of rows of the set changes what shows of a row by what shows of it. -/
theorem Row.only_updated (hK : ∀ r : Row, r.names c id product = true →
    K table r.id r.productName = true) : (r.updated c id product quantity).only K table =
      ((r.only K table).updated c id product quantity).only K table := by
  by_cases hr : r.names c id product = true
  · rw [Row.only_of_mem (hK r hr)]
  · have hnot : ¬ r.accepts c id product quantity = true := fun ha => hr (names_of_accepts r ha)
    have hnot' : ¬ (r.only K table).accepts c id product quantity = true := fun ha => by
      have hn := names_of_accepts _ ha
      rw [Row.names_only] at hn
      exact hr hn
    rw [Row.updated_of_not_accepts hnot, Row.updated_of_not_accepts hnot']
    unfold Row.only
    split <;> rfl

theorem updateRows_only (quantity : Int) (hK : ∀ r : Row, r.names c id product = true →
    K table r.id r.productName = true)
    (h : rows.map (Row.only K table) = rows'.map (Row.only K table)) (ok : Bool) :
    (answerUpdate ok rows (updateRows c id product quantity rows)).1 =
        (answerUpdate ok rows' (updateRows c id product quantity rows')).1 ∧
      (answerUpdate ok rows (updateRows c id product quantity rows)).2.map (Row.only K table) =
        (answerUpdate ok rows' (updateRows c id product quantity rows')).2.map
          (Row.only K table) := by
  have hselected : rows.filter (Row.accepts c id product quantity) =
      rows'.filter (Row.accepts c id product quantity) := by
    rw [← filter_only names_of_accepts hK, h, filter_only names_of_accepts hK]
  have hmapped : ∀ rows : List Row,
      (rows.map (Row.updated c id product quantity)).map (Row.only K table) =
        (rows.map (Row.only K table)).map fun r =>
          (r.updated c id product quantity).only K table := by
    intro rows
    rw [List.map_map, List.map_map]
    exact List.map_congr_left fun r _ => Row.only_updated hK
  cases ok with
  | false => exact ⟨rfl, h⟩
  | true =>
    unfold updateRows
    simp only [hselected]
    by_cases hfit :
        ((rows'.filter (Row.accepts c id product quantity)).all (Row.fits quantity)) = true
    · simp only [hfit, ↓reduceIte, answerUpdate]
      refine ⟨trivial, ?_⟩
      rw [hmapped, hmapped, h]
    · simp only [hfit, answerUpdate]
      exact ⟨rfl, h⟩

/-- An update of rows outside the set does not show. -/
theorem updateRows_hidden (hK : ∀ r : Row, r.names c id product = true →
    K table r.id r.productName = false) (ok : Bool) :
    (answerUpdate ok rows (updateRows c id product quantity rows)).2.map (Row.only K table) =
      rows.map (Row.only K table) := by
  have hmapped : (rows.map (Row.updated c id product quantity)).map (Row.only K table) =
      rows.map (Row.only K table) := by
    rw [List.map_map]
    refine List.map_congr_left fun r _ => ?_
    show (r.updated c id product quantity).only K table = r.only K table
    by_cases ha : r.accepts c id product quantity = true
    · have hout : K table r.id r.productName = false := hK r (names_of_accepts r ha)
      rw [Row.updated_of_accepts ha]
      unfold Row.only
      rw [Row.add_id, Row.add_productName, hout]
      rfl
    · rw [Row.updated_of_not_accepts ha]
  cases ok with
  | false => rfl
  | true =>
    cases hrows : updateRows c id product quantity rows with
    | none => rfl
    | some res =>
      obtain ⟨rows', n⟩ := res
      obtain ⟨rfl, _, _⟩ := updateRows_some hrows
      exact hmapped

end

/-! ## What an operation sees -/

/-- Two states that look the same through a set of rows. -/
def Seen (K : RowSet) (s s' : Shared) : Prop :=
  s.clients = s'.clients ∧ s.tables.only K = s'.tables.only K

theorem Seen.equivalence (K : RowSet) : Equivalence (Seen K) where
  refl _ := ⟨rfl, rfl⟩
  symm h := ⟨h.1.symm, h.2.symm⟩
  trans h h' := ⟨h.1.trans h'.1, h.2.trans h'.2⟩

/-- A set of rows without the others. -/
def RowSet.others (K : RowSet) : RowSet := fun table id name => !K table id name

/-- The operation neither registers a client nor reads the product totals. -/
def Operation.Plain : Operation → Prop
  | .registerClient .. => False
  | .productQuantities => False
  | _ => True

/-- The operation is about rows of the set only. -/
structure Operation.Within (c : Collation) (K : RowSet) (o : Operation) : Prop where
  plain : o.Plain
  rows : ∀ k, o.key? = some k → ∀ r : Row, r.names c k.location k.productName = true →
    K k.table r.id r.productName = true

/-- What `storeOrder` returns depends on the text alone. -/
theorem OrderStore.storeOrder_result (json : JsonCpp) (store store' : OrderStore)
    (jsonStr : String) :
    (store.storeOrder json jsonStr).1 = (store'.storeOrder json jsonStr).1 := by
  unfold storeOrder
  cases json.parse jsonStr with
  | error e => rfl
  | ok v =>
    cases v with
    | none => rfl
    | some root =>
      dsimp only
      cases readProduct root with
      | error e => rfl
      | ok r =>
        dsimp only
        split <;> rfl

section

variable {env : Env} {K : RowSet}

/-- An operation about rows of a set is answered alike in states that look the
same through it, and leaves them so. -/
theorem answer_own (ok : Bool) (o : Operation) {s s' : Shared} (ho : o.Within env.collation K)
    (h : Seen K s s') : (answer env ok s o).1 = (answer env ok s' o).1 ∧
      Seen K (answer env ok s o).2 (answer env ok s' o).2 := by
  obtain ⟨hclients, htables⟩ := h
  have hhubs : s.tables.hubs.map (Row.only K .hubs) = s'.tables.hubs.map (Row.only K .hubs) :=
    congrArg Tables.hubs htables
  have hwarehouses : s.tables.warehouses.map (Row.only K .warehouses) =
      s'.tables.warehouses.map (Row.only K .warehouses) := congrArg Tables.warehouses htables
  cases o with
  | getHubInventory productName hubId =>
    have hrows := ho.rows _ rfl
    have hsame : selectRows env.collation hubId productName s.tables.hubs =
        selectRows env.collation hubId productName s'.tables.hubs := by
      unfold selectRows
      rw [← filter_only (fun _ hr => hr) hrows, hhubs, filter_only (fun _ hr => hr) hrows]
    refine ⟨?_, hclients, htables⟩
    show (if ok then some _ else none) = if ok then some _ else none
    rw [hsame]
  | getWarehouseInventory productName warehouseId =>
    have hrows := ho.rows _ rfl
    have hsame : selectRows env.collation warehouseId productName s.tables.warehouses =
        selectRows env.collation warehouseId productName s'.tables.warehouses := by
      unfold selectRows
      rw [← filter_only (fun _ hr => hr) hrows, hwarehouses, filter_only (fun _ hr => hr) hrows]
    refine ⟨?_, hclients, htables⟩
    show (if ok then some _ else none) = if ok then some _ else none
    rw [hsame]
  | updateHubInventory hubId productName quantity =>
    obtain ⟨hreply, hafter⟩ := updateRows_only quantity (ho.rows _ rfl) hhubs ok
    exact ⟨hreply, hclients, congrArg₂ Tables.mk hafter hwarehouses⟩
  | updateWarehouseInventory warehouseId productName quantity =>
    obtain ⟨hreply, hafter⟩ := updateRows_only quantity (ho.rows _ rfl) hwarehouses ok
    exact ⟨hreply, hclients, congrArg₂ Tables.mk hhubs hafter⟩
  | registerClient => exact ho.plain.elim
  | productQuantities => exact ho.plain.elim
  | storeOrder jsonStr => exact ⟨OrderStore.storeOrder_result _ _ _ _, hclients, htables⟩
  | sendto => exact ⟨rfl, hclients, htables⟩
  | write => exact ⟨rfl, hclients, htables⟩
  | udpRegistered pid =>
    refine ⟨?_, hclients, htables⟩
    show s.clients.clientMapUdp.contains pid = s'.clients.clientMapUdp.contains pid
    rw [hclients]
  | findClientById clientId protocol =>
    refine ⟨?_, hclients, htables⟩
    show s.clients.findClientById clientId protocol = s'.clients.findClientById clientId protocol
    rw [hclients]
  | clientMapUdp =>
    refine ⟨?_, hclients, htables⟩
    show s.clients.clientMapUdp = s'.clients.clientMapUdp
    rw [hclients]
  | clientMapTcp =>
    refine ⟨?_, hclients, htables⟩
    show s.clients.clientMapTcp = s'.clients.clientMapTcp
    rw [hclients]

/-- An operation about other rows does not show. -/
theorem answer_other (ok : Bool) (o : Operation) {s : Shared} (hplain : o.Plain)
    (hrows : ∀ k, o.key? = some k → ∀ r : Row,
      r.names env.collation k.location k.productName = true →
        K k.table r.id r.productName = false) : Seen K (answer env ok s o).2 s := by
  cases o with
  | updateHubInventory hubId productName quantity =>
    have hhidden := @updateRows_hidden K .hubs _ _ _ quantity s.tables.hubs (hrows _ rfl) ok
    exact ⟨rfl, congrArg₂ Tables.mk hhidden rfl⟩
  | updateWarehouseInventory warehouseId productName quantity =>
    have hhidden := @updateRows_hidden K .warehouses _ _ _ quantity s.tables.warehouses
      (hrows _ rfl) ok
    exact ⟨rfl, congrArg₂ Tables.mk rfl hhidden⟩
  | registerClient => exact hplain.elim
  | productQuantities => exact hplain.elim
  | _ => exact ⟨rfl, rfl⟩

/-- A handler that stays within a set of rows is not seen through the others,
and the other way round. -/
theorem seen_shielded (env : Env) (K : RowSet) :
    @Shielded Server Shared Bool (answer env) (Seen K) (Operation.Within env.collation K)
        (Operation.Within env.collation K.others) ∧
      @Shielded Server Shared Bool (answer env) (Seen K.others)
        (Operation.Within env.collation K.others) (Operation.Within env.collation K) := by
  constructor
  · refine ⟨Seen.equivalence K, fun ok o _ _ ho h => answer_own ok o ho h, fun ok o s ho => ?_⟩
    refine answer_other ok o ho.plain fun k hk r hr => ?_
    have hout := ho.rows k hk r hr
    simpa [RowSet.others] using hout
  · refine ⟨Seen.equivalence _, fun ok o _ _ ho h => answer_own ok o ho h, fun ok o s ho => ?_⟩
    refine answer_other ok o ho.plain fun k hk r hr => ?_
    have hin := ho.rows k hk r hr
    simpa [RowSet.others] using hin

end

end LogisticService
