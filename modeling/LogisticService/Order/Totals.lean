import LogisticService.Order.Fields
import LogisticService.Order.Sample
import Mathlib.Algebra.BigOperators.Group.List.Basic
import Mathlib.Algebra.GroupWithZero.Nat
import Mathlib.Algebra.Ring.Int.Defs
import Mathlib.Data.List.Induction

/-!
# The totals of the product report

What `productQuantities` should hold after any orders is stated without the
store: the sum, over the orders that parse, of the quantities they carry for a
product (`exactTotal`). The store adds C `int`s, so it holds these sums exactly
as long as each of them fits one.
-/

namespace LogisticService

/-- The integer a value stands for, whatever its size; a real counts with what
`asInt` gives of it. -/
def Value.integer? : Value → Option Int
  | .null => some 0
  | .int i => some i
  | .real d => d.trunc
  | .boolean b => some (if b then 1 else 0)
  | .string _ => none
  | .array _ => none
  | .object _ => none

/-- `asInt` is the integer of a value, when that fits an `int`. -/
theorem Value.asInt_ok_iff {v : Value} {n : Int} :
    v.asInt = .ok n ↔ v.integer? = some n ∧ IsInt n := by
  cases v with
  | null =>
    simp only [asInt, integer?, Except.ok.injEq, Option.some.injEq]
    refine ⟨fun h => ⟨h, h ▸ by decide⟩, fun h => h.1⟩
  | int i =>
    simp only [asInt, integer?, Option.some.injEq]
    by_cases hi : IsInt i
    · rw [if_pos hi]
      refine ⟨fun h => ?_, fun h => by rw [h.1]⟩
      cases h
      exact ⟨rfl, hi⟩
    · rw [if_neg hi]
      refine ⟨fun h => (by cases h), fun h => absurd (h.1 ▸ h.2) hi⟩
  | real d =>
    simp only [asInt, integer?]
    cases hd : d.trunc with
    | none => simp
    | some m =>
      by_cases hm : IsInt m
      · simp only [hm, ↓reduceIte, Except.ok.injEq, Option.some.injEq]
        exact ⟨fun h => ⟨h, h ▸ hm⟩, fun h => h.1⟩
      · simp only [hm, ↓reduceIte, reduceCtorEq, Option.some.injEq, false_iff, not_and]
        intro h hn
        exact hm (h ▸ hn)
  | boolean b =>
    simp only [asInt, integer?, Except.ok.injEq, Option.some.injEq]
    refine ⟨fun h => ⟨h, ?_⟩, fun h => h.1⟩
    rw [← h]
    cases b <;> decide
  | string _ => simp [asInt, integer?]
  | array _ => simp [asInt, integer?]
  | object _ => simp [asInt, integer?]

namespace OrderStore

/-- The product name an order carries and the quantity of it. -/
def carried? (root : Value) : Option (String × Int) := do
  let product ← (root.path ["general_info", "action", "product"]).toOption
  let productName ← (product.get "name" >>= Value.asString).toOption
  let quantity ← (product.get "quantity").toOption
  let qty ← quantity.integer?
  return (productName, qty)

/-- What a stored text counts for in the report: the name and the positive
quantity of an order that parses. -/
def counted? (json : JsonCpp) (text : String) : Option (String × Int) :=
  match json.parse text with
  | .ok (some root) => (carried? root).filter fun order => order.1 ≠ "" ∧ order.2 > 0
  | _ => none

/-- What a stored text adds to the total of a product. -/
def share (json : JsonCpp) (productName text : String) : Int :=
  match counted? json text with
  | some order => if order.1 = productName then order.2 else 0
  | none => 0

/-- The sum of the quantities that the texts carry for a product. -/
def exactTotal (json : JsonCpp) (productName : String) (texts : List String) : Int :=
  (texts.map (share json productName)).sum

/-- The store after a list of calls of `storeOrder`, whatever they return. -/
def storeAll (json : JsonCpp) (texts : List String) : OrderStore :=
  texts.foldl (fun store text => (store.storeOrder json text).2) .start

/-- The report is exact: every text is kept, each product has one total, which
is the exact one, and a product nobody ordered has none. -/
structure Exact (json : JsonCpp) (texts : List String) : Prop where
  orders : (storeAll json texts).storedOrders = texts
  keys : ((storeAll json texts).productQuantities.map Prod.fst).Nodup
  totals : ∀ productName, (storeAll json texts).productQuantities.lookup productName =
    if exactTotal json productName texts = 0 then none
    else some (exactTotal json productName texts)

theorem storeAll_snoc (json : JsonCpp) (texts : List String) (text : String) :
    storeAll json (texts ++ [text]) = ((storeAll json texts).storeOrder json text).2 := by
  simp [storeAll]

theorem exactTotal_snoc (json : JsonCpp) (productName : String) (texts : List String)
    (text : String) : exactTotal json productName (texts ++ [text]) =
      exactTotal json productName texts + share json productName text := by
  simp [exactTotal]

section

variable {json : JsonCpp} {text : String} {texts : List String} {productName : String}

theorem counted?_pos {order : String × Int} (h : counted? json text = some order) :
    order.1 ≠ "" ∧ 0 < order.2 := by
  unfold counted? at h
  split at h
  · have hfilter := (Option.filter_eq_some_iff.1 h).2
    exact of_decide_eq_true hfilter
  · cases h

theorem share_nonneg (json : JsonCpp) (productName text : String) :
    0 ≤ share json productName text := by
  unfold share
  split
  · next order horder =>
    have := (counted?_pos horder).2
    split <;> omega
  · omega

theorem exactTotal_nonneg (json : JsonCpp) (productName : String) (texts : List String) :
    0 ≤ exactTotal json productName texts := by
  induction texts using List.reverseRecOn with
  | nil => simp [exactTotal]
  | append_singleton texts text ih =>
    rw [exactTotal_snoc]
    have := share_nonneg json productName text
    omega

theorem toOption_eq_some_iff {α : Type} {x : Except Exn α} {a : α} :
    x.toOption = some a ↔ x = .ok a := by
  cases x <;> simp [Except.toOption]

/-- `storeOrder` reads the order a text carries, when its quantity fits an `int`. -/
theorem readProduct_ok_iff {root : Value} {order : String × Int} :
    readProduct root = .ok order ↔ carried? root = some order ∧ IsInt order.2 := by
  have hpath : readProduct root = root.path ["general_info", "action", "product"] >>=
      fun product => product.get "name" >>= Value.asString >>= fun productName =>
        product.get "quantity" >>= Value.asInt >>= fun qty => .ok (productName, qty) := by
    simp [readProduct, Value.path, bind_assoc]
    rfl
  obtain ⟨productName, qty⟩ := order
  rw [hpath]
  simp only [carried?, Except.seq_ok_iff, Option.bind_eq_bind, Option.bind_eq_some_iff,
    toOption_eq_some_iff, Value.asInt_ok_iff]
  constructor
  · rintro ⟨product, hproduct, name, hname, n, ⟨quantity, hquantity, hn, hint⟩, heq⟩
    cases heq
    exact ⟨⟨product, hproduct, _, hname, quantity, hquantity, _, hn, rfl⟩, hint⟩
  · rintro ⟨⟨product, hproduct, name, hname, quantity, hquantity, n, hn, heq⟩, hint⟩
    cases heq
    exact ⟨product, hproduct, _, hname, _, ⟨quantity, hquantity, hn, hint⟩, rfl⟩

/-- The total of a product after an addition to one. -/
theorem lookup_addQuantity (name : String) (qty : Int) (totals : List (String × Int)) :
    (addQuantity name qty totals).lookup productName =
      if productName = name then some (toInt32 ((totals.lookup name).getD 0 + qty))
      else totals.lookup productName := by
  induction totals with
  | nil =>
    by_cases h : productName = name
    · simp [addQuantity, h]
    · simp [addQuantity, h]
  | cons head rest ih =>
    obtain ⟨name', total⟩ := head
    unfold addQuantity
    by_cases hname : name' = name
    · subst hname
      by_cases h : productName = name'
      · simp [h]
      · have hne : (productName == name') = false := by simpa using h
        simp [List.lookup_cons, h, hne]
    · have hne : (name == name') = false := by simpa using fun h : name = name' => hname h.symm
      rw [if_neg hname]
      by_cases h : productName = name'
      · subst h
        simp [hname]
      · have hne' : (productName == name') = false := by simpa using h
        simp only [List.lookup_cons, hne', hne, ih]

/-- An addition to a total adds a key only when there is none yet. -/
theorem keys_addQuantity (name : String) (qty : Int) (totals : List (String × Int)) :
    (addQuantity name qty totals).map Prod.fst =
      if name ∈ totals.map Prod.fst then totals.map Prod.fst
      else totals.map Prod.fst ++ [name] := by
  induction totals with
  | nil => rfl
  | cons head rest ih =>
    obtain ⟨name', total⟩ := head
    unfold addQuantity
    by_cases hname : name' = name
    · simp [hname]
    · have hne : ¬ name = name' := fun h => hname h.symm
      rw [if_neg hname, List.map_cons, ih]
      by_cases hmem : name ∈ rest.map Prod.fst
      · simp only [List.map_cons, List.mem_cons, hne, hmem, or_true, ↓reduceIte]
      · simp only [List.map_cons, List.mem_cons, hne, hmem, or_false, ↓reduceIte, List.cons_append]

/-! ## One call of `storeOrder` -/

/-- A call keeps the text and adds the order it carries, when its quantity fits
an `int`, to one total. -/
theorem storeOrder_totals (store : OrderStore) :
    (store.storeOrder json text).2.storedOrders = store.storedOrders ++ [text] ∧
      (store.storeOrder json text).2.productQuantities =
        match counted? json text with
        | some order =>
          if IsInt order.2 then addQuantity order.1 order.2 store.productQuantities
          else store.productQuantities
        | none => store.productQuantities := by
  unfold storeOrder counted?
  cases json.parse text with
  | error e => exact ⟨rfl, rfl⟩
  | ok parsed =>
    cases parsed with
    | none => exact ⟨rfl, rfl⟩
    | some root =>
      cases hread : readProduct root with
      | error e =>
        simp only [hread, true_and]
        cases hcarried : carried? root with
        | none => rfl
        | some order =>
          have hnot : ¬ IsInt order.2 := by
            intro hint
            have hok := readProduct_ok_iff.2 ⟨hcarried, hint⟩
            cases hread.symm.trans hok
          by_cases hpos : order.1 ≠ "" ∧ order.2 > 0
          · simp [Option.filter, hpos, hnot]
          · simp [Option.filter, hpos]
      | ok order =>
        obtain ⟨hcarried, hint⟩ := readProduct_ok_iff.1 hread
        obtain ⟨name, qty⟩ := order
        simp only [hread, hcarried, Option.filter]
        by_cases hpos : name ≠ "" ∧ qty > 0
        · simp only [hpos, hint, and_self, ↓reduceIte, decide_true, ne_eq, not_false_eq_true]
        · simp only [hpos, ↓reduceIte, decide_false, and_self, Bool.false_eq_true]

/-! ## Whole histories -/

theorem storeAll_orders (json : JsonCpp) (texts : List String) :
    (storeAll json texts).storedOrders = texts := by
  induction texts using List.reverseRecOn with
  | nil => rfl
  | append_singleton texts text ih =>
    rw [storeAll_snoc, (storeOrder_totals _).1, ih]

theorem storeAll_keys (json : JsonCpp) (texts : List String) :
    ((storeAll json texts).productQuantities.map Prod.fst).Nodup := by
  induction texts using List.reverseRecOn with
  | nil => exact List.nodup_nil
  | append_singleton texts text ih =>
    rw [storeAll_snoc, (storeOrder_totals _).2]
    split
    · next order _ =>
      split
      · rw [keys_addQuantity]
        split
        · exact ih
        · next hmem =>
          have hone : [order.1].Nodup := List.nodup_cons.2 ⟨List.not_mem_nil, List.nodup_nil⟩
          refine List.nodup_append.2 ⟨ih, hone, fun a ha b hb hab => hmem ?_⟩
          rw [← List.mem_singleton.1 hb, ← hab]
          exact ha
      · exact ih
    · exact ih

/-- A total is a C `int`, exact or not. -/
theorem storeAll_isInt {total : Int}
    (h : (storeAll json texts).productQuantities.lookup productName = some total) :
    IsInt total := by
  induction texts using List.reverseRecOn generalizing total with
  | nil => cases h
  | append_singleton texts text ih =>
    rw [storeAll_snoc, (storeOrder_totals _).2] at h
    split at h
    · next order _ =>
      split at h
      · rw [lookup_addQuantity] at h
        split at h
        · cases h
          exact toInt32_isInt _
        · exact ih h
      · exact ih h
    · exact ih h

/-- As long as the exact totals fit an `int`, the store holds them. -/
theorem storeAll_totals (hfits : ∀ productName, exactTotal json productName texts ≤ INT_MAX)
    (productName : String) : (storeAll json texts).productQuantities.lookup productName =
      if exactTotal json productName texts = 0 then none
      else some (exactTotal json productName texts) := by
  induction texts using List.reverseRecOn generalizing productName with
  | nil => rfl
  | append_singleton texts text ih =>
    have hprefix : ∀ name, exactTotal json name texts ≤ INT_MAX := by
      intro name
      have hwhole := hfits name
      have hshare := share_nonneg json name text
      rw [exactTotal_snoc] at hwhole
      omega
    have hwhole := hfits
    simp only [exactTotal_snoc, share] at hwhole ⊢
    rw [storeAll_snoc, (storeOrder_totals _).2]
    cases hcounted : counted? json text with
    | none =>
      simp only [Int.add_zero]
      exact ih hprefix productName
    | some order =>
      obtain ⟨name, qty⟩ := order
      have hqty : 0 < qty := (counted?_pos hcounted).2
      have hold := exactTotal_nonneg json name texts
      have hsum : exactTotal json name texts + qty ≤ INT_MAX := by
        have h := hwhole name
        simpa only [hcounted, ↓reduceIte] using h
      have hint : IsInt qty := ⟨by unfold INT_MIN; omega, by omega⟩
      have hgetD : ((storeAll json texts).productQuantities.lookup name).getD 0 =
          exactTotal json name texts := by
        rw [ih hprefix name]
        split
        · next hzero => rw [hzero]; rfl
        · rfl
      simp only [hint, ↓reduceIte]
      rw [lookup_addQuantity, hgetD]
      by_cases heq : productName = name
      · subst heq
        have hne : ¬ exactTotal json productName texts + qty = 0 := by omega
        have hintSum : IsInt (exactTotal json productName texts + qty) :=
          ⟨by unfold INT_MIN; omega, hsum⟩
        simp only [↓reduceIte, hne, toInt32_of_isInt hintSum]
      · have hne : ¬ name = productName := fun h => heq h.symm
        simp only [heq, hne, ↓reduceIte, Int.add_zero]
        exact ih hprefix productName

end

/-- **The report is exact just as long as every product's total fits an `int`**,
after any texts in any order. -/
theorem report_exact_iff (json : JsonCpp) (texts : List String) :
    (Exact json texts ∧ ∀ store : OrderStore, store.clearStoredOrders = .start) ↔
      ∀ productName, exactTotal json productName texts ≤ INT_MAX := by
  constructor
  · intro ⟨hexact, _⟩ productName
    have htotal := hexact.totals productName
    by_cases hzero : exactTotal json productName texts = 0
    · rw [hzero]; decide
    · rw [if_neg hzero] at htotal
      exact (storeAll_isInt htotal).2
  · intro hfits
    exact ⟨⟨storeAll_orders json texts, storeAll_keys json texts, storeAll_totals hfits⟩,
      fun _ => rfl⟩

/-! ## A total that wraps around -/

/-- Two billion units of water. -/
def hugeOrder : Value :=
  .object [("general_info", .object [("action", .object [("product", .object
    [("name", .string "Water"), ("quantity", .int 2000000000)])])])]

def hugeOrderText : String :=
  "\x7b\"general_info\":\x7b\"action\":\x7b\"product\":" ++
    "\x7b\"name\":\"Water\",\"quantity\":2000000000\x7d\x7d\x7d\x7d"

/-- Ordered twice, they leave a negative total. -/
theorem hugeOrder_wraps :
    (storeAll (.ofReader fun text => .ok ([(hugeOrderText, hugeOrder)].lookup text))
      [hugeOrderText, hugeOrderText]).productQuantities = [("Water", -294967296)] := by
  decide +kernel

/-- So the totals are not exact after every list of orders. -/
theorem report_not_exact : ¬ ∀ (json : JsonCpp) (texts : List String), Exact json texts := by
  intro h
  have htotal := (h (.ofReader fun text => .ok ([(hugeOrderText, hugeOrder)].lookup text))
    [hugeOrderText, hugeOrderText]).totals "Water"
  rw [hugeOrder_wraps] at htotal
  have hnonneg := exactTotal_nonneg (.ofReader fun text =>
    .ok ([(hugeOrderText, hugeOrder)].lookup text)) "Water" [hugeOrderText, hugeOrderText]
  split at htotal
  · cases htotal
  · have hneg : (-294967296 : Int) = _ := Option.some.inj htotal
    omega

end OrderStore

end LogisticService
