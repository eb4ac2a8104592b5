import LogisticService.Text

/-!
# The `hubs` and `warehouses` tables and their stored procedures

Both tables have the same shape and each pair of procedures the same body, so
a row and the two statements are defined once. Columns may be NULL, rows may
repeat, and product names are compared by the database's collation, which is a
parameter.

An UPDATE is atomic: it changes every row it selects, or ends in an error and
changes none (`updateRows`). Its guard is evaluated without overflow; the new
value has to fit the INT column.
-/

namespace LogisticService

/-- The collation of the product name columns: an equivalence on texts. -/
structure Collation where
  same : String → String → Bool
  refl : ∀ a, same a a = true
  symm : ∀ {a b}, same a b = true → same b a = true
  trans : ∀ {a b c}, same a b = true → same b c = true → same a c = true

/-- The collation that tells texts apart but for the case of ASCII letters. -/
def Collation.caseless : Collation where
  same a b := toLower a = toLower b
  refl _ := by simp
  symm h := by simpa using (of_decide_eq_true h).symm
  trans h₁ h₂ := by simpa using (of_decide_eq_true h₁).trans (of_decide_eq_true h₂)

/-- A row of either table: `id_hub` or `id_warehouse`, `product_name` and
`available_quantity`, each `none` when NULL. -/
structure Row where
  id : Option Int
  productName : Option String
  availableQuantity : Option Int
deriving DecidableEq, Repr

/-- The WHERE clause both kinds of statement share: the location and the product. -/
def Row.names (c : Collation) (id : Int) (product : String) (r : Row) : Bool :=
  match r.id, r.productName with
  | some i, some p => i = id && c.same p product
  | _, _ => false

/-- The rows an UPDATE by `quantity` selects: those it names whose quantity
stays at zero or above. -/
def Row.accepts (c : Collation) (id : Int) (product : String) (quantity : Int) (r : Row) : Bool :=
  r.names c id product &&
    match r.availableQuantity with
    | some a => 0 ≤ a + quantity
    | none => false

/-- `available_quantity = available_quantity + quantity`. -/
def Row.add (quantity : Int) (r : Row) : Row :=
  { r with availableQuantity := r.availableQuantity.map (· + quantity) }

/-- The new quantity of a row fits its INT column. -/
def Row.fits (quantity : Int) (r : Row) : Bool :=
  match r.availableQuantity with
  | some a => decide (IsInt (a + quantity))
  | none => true

/-- A row after the UPDATE. -/
def Row.updated (c : Collation) (id : Int) (product : String) (quantity : Int) (r : Row) : Row :=
  if r.accepts c id product quantity then r.add quantity else r

/-- The UPDATE of `updateHubInventory` and `updateWarehouseInventory`, with the
number of rows it changed; `none` is an error. -/
def updateRows (c : Collation) (id : Int) (product : String) (quantity : Int) (rows : List Row) :
    Option (List Row × Nat) :=
  let selected := rows.filter (Row.accepts c id product quantity)
  if selected.all (Row.fits quantity) then
    some (rows.map (Row.updated c id product quantity),
      if quantity = 0 then 0 else selected.length)
  else none

/-- The SELECT of `getHubInventory` and `getWarehouseInventory`. -/
def selectRows (c : Collation) (id : Int) (product : String) (rows : List Row) :
    List (Option Int) :=
  (rows.filter (Row.names c id product)).map Row.availableQuantity

structure Tables where
  hubs : List Row
  warehouses : List Row
deriving DecidableEq, Repr

/-! ## Naming and accepting rows -/

/-- Two rows a statement cannot tell apart: one location, one product. -/
def Row.SameKey (c : Collation) (r r' : Row) : Prop :=
  ∃ id product, r.names c id product = true ∧ r'.names c id product = true

/-- One row per location and product. -/
def OneRowEach (c : Collation) (rows : List Row) : Prop :=
  rows.Pairwise fun r r' => ¬ r.SameKey c r'

section

variable {c : Collation} {id : Int} {product : String} {quantity : Int} {r : Row}

theorem Row.accepts_iff : r.accepts c id product quantity = true ↔
    r.names c id product = true ∧ ∃ a, r.availableQuantity = some a ∧ 0 ≤ a + quantity := by
  unfold Row.accepts
  cases hq : r.availableQuantity <;> simp

theorem Row.names_iff : r.names c id product = true ↔
    r.id = some id ∧ ∃ p, r.productName = some p ∧ c.same p product = true := by
  unfold Row.names
  cases hid : r.id <;> cases hp : r.productName <;> simp

@[simp] theorem Row.add_id : (r.add quantity).id = r.id := rfl

@[simp] theorem Row.add_productName : (r.add quantity).productName = r.productName := rfl

theorem Row.names_congr {r' : Row} (hid : r'.id = r.id) (hname : r'.productName = r.productName) :
    r'.names c id product = r.names c id product := by
  unfold Row.names; rw [hid, hname]

theorem Row.updated_key : (r.updated c id product quantity).id = r.id ∧
    (r.updated c id product quantity).productName = r.productName := by
  unfold Row.updated
  split <;> exact ⟨rfl, rfl⟩

/-- An update changes the names of no row. -/
@[simp] theorem Row.names_updated {id' : Int} {product' : String} :
    (r.updated c id product quantity).names c id' product' = r.names c id' product' :=
  Row.names_congr Row.updated_key.1 Row.updated_key.2

theorem Row.updated_of_accepts (h : r.accepts c id product quantity = true) :
    r.updated c id product quantity = r.add quantity := if_pos h

theorem Row.updated_of_not_accepts (h : ¬ r.accepts c id product quantity = true) :
    r.updated c id product quantity = r := if_neg h

end

section

variable {c : Collation} {rows : List Row}

/-- Updates keep one row per key. -/
theorem OneRowEach.updated (h : OneRowEach c rows) (id : Int) (product : String) (quantity : Int) :
    OneRowEach c (rows.map (Row.updated c id product quantity)) := by
  unfold OneRowEach
  rw [List.pairwise_map]
  exact h.imp fun hne ⟨id', product', h₁, h₂⟩ =>
    hne ⟨id', product', by simpa using h₁, by simpa using h₂⟩

/-- With one row per key, a statement names at most one position. -/
theorem OneRowEach.unique (h : OneRowEach c rows) {id : Int} {product : String} {i j : Nat}
    {r r' : Row} (hi : rows[i]? = some r) (hj : rows[j]? = some r')
    (hr : r.names c id product = true) (hr' : r'.names c id product = true) : i = j := by
  have hpair := List.pairwise_iff_getElem.1 h
  obtain ⟨hil, rfl⟩ := List.getElem?_eq_some_iff.1 hi
  obtain ⟨hjl, rfl⟩ := List.getElem?_eq_some_iff.1 hj
  rcases Nat.lt_trichotomy i j with hlt | heq | hgt
  · exact absurd ⟨id, product, hr, hr'⟩ (hpair i j hil hjl hlt)
  · exact heq
  · exact absurd ⟨id, product, hr', hr⟩ (hpair j i hjl hil hgt)

/-- With one row per key, a statement names at most one row. -/
theorem OneRowEach.eq_of_names (h : OneRowEach c rows) {id : Int} {product : String} {r r' : Row}
    (hr : r ∈ rows) (hr' : r' ∈ rows) (hn : r.names c id product = true)
    (hn' : r'.names c id product = true) : r = r' := by
  obtain ⟨i, hi⟩ := List.mem_iff_getElem?.1 hr
  obtain ⟨j, hj⟩ := List.mem_iff_getElem?.1 hr'
  obtain rfl := h.unique hi hj hn hn'
  exact Option.some.inj (hi.symm.trans hj)

/-- What a successful UPDATE does: every accepting row rises by the quantity,
within the range of an `int`, and the count is positive when there is one. -/
theorem updateRows_some {id : Int} {product : String} {quantity : Int} {rows' : List Row} {n : Nat}
    (h : updateRows c id product quantity rows = some (rows', n)) :
    rows' = rows.map (Row.updated c id product quantity) ∧
      (∀ r ∈ rows, r.accepts c id product quantity = true → r.fits quantity = true) ∧
      (0 < n ↔ quantity ≠ 0 ∧ ∃ r ∈ rows, r.accepts c id product quantity = true) := by
  simp only [updateRows] at h
  split at h
  · next hfit =>
    simp only [Option.some.injEq, Prod.mk.injEq] at h
    obtain ⟨rfl, rfl⟩ := h
    refine ⟨rfl, fun r hr ha => ?_, ?_⟩
    · exact List.all_eq_true.1 hfit r (List.mem_filter.2 ⟨hr, ha⟩)
    · by_cases hq : quantity = 0
      · simp [hq]
      · simp only [hq, ↓reduceIte, List.length_pos_iff_exists_mem, List.mem_filter, ne_eq,
          not_false_eq_true, true_and]
  · cases h

theorem updateRows_none {id : Int} {product : String} {quantity : Int}
    (h : updateRows c id product quantity rows = none) :
    ∃ r ∈ rows, r.accepts c id product quantity = true ∧ r.fits quantity = false := by
  simp only [updateRows] at h
  split at h
  · cases h
  · next hfit =>
    simp only [List.all_eq_true, List.mem_filter, not_forall] at hfit
    obtain ⟨r, ⟨hr, ha⟩, hf⟩ := hfit
    exact ⟨r, hr, ha, by simpa using hf⟩

end

end LogisticService
