import LogisticService.Inventory.Footprint
import LogisticService.Order.Sample
import LogisticService.Server.Observing

/-!
# Orders on disjoint rows

An order is about two rows at most, those its source and its destination name;
every database call of its pipeline (the stock check, both sides of the
transfer, the two warehouse checks and the restock) is about one of them. Two
orders with different rows therefore do not see each other, in any
interleaving of their handlers.
-/

namespace LogisticService

open Effects Program

/-! ## The rows of an order -/

def Table.ofType (type : String) : Option Table :=
  if type = "hub" then some .hubs else if type = "warehouse" then some .warehouses else none

/-- The row one side of an order names, if its type names a table. -/
def sideKey (root : Value) (typePath locationPath : List String) : Option Key :=
  match root.stringAt typePath, root.intAt locationPath, root.stringAt productNamePath with
  | .ok type, .ok location, .ok productName =>
    (Table.ofType type).map fun table => ⟨table, location, productName⟩
  | _, _, _ => none

/-- The rows named by the source and the destination of an order. -/
def orderKeys (root : Value) : List Key :=
  (sideKey root sourceTypePath sourceLocationPath).toList ++
    (sideKey root destinationTypePath destinationLocationPath).toList

/-- No row of one order is a row of the other, under the database's comparison
of names. -/
def DisjointOrders (c : Collation) (root root' : Value) : Prop :=
  ∀ k ∈ orderKeys root, ∀ k' ∈ orderKeys root', ¬ (k.table = k'.table ∧
    k.location = k'.location ∧ c.same k.productName k'.productName = true)

/-- The rows of an order, as a set. -/
def orderRows (c : Collation) (root : Value) : RowSet := fun table id name =>
  (orderKeys root).any fun k => k.rows c table id name

section

variable {c : Collation} {root root' : Value} {o : Operation} {type productName : String}
  {location : Int}

theorem sideKey_eq (table : Table) {typePath locationPath : List String}
    (htype : root.stringAt typePath = .ok type) (hlocation : root.intAt locationPath = .ok location)
    (hname : root.stringAt productNamePath = .ok productName)
    (htable : Table.ofType type = some table) :
    sideKey root typePath locationPath = some ⟨table, location, productName⟩ := by
  unfold sideKey
  rw [htype, hlocation, hname]
  dsimp only
  rw [htable]
  rfl

/-- An operation about no row. -/
theorem within_of_no_key {K : RowSet} (hplain : o.Plain) (hkey : o.key? = none) : o.Within c K :=
  ⟨hplain, fun k hk => absurd (hkey.symm.trans hk) (by simp)⟩

theorem within_of_mem {k : Key} (hkey : o.key? = some k) (hk : k ∈ orderKeys root) :
    o.Within c (orderRows c root) := by
  constructor
  · cases o with
    | registerClient => cases hkey
    | productQuantities => cases hkey
    | _ => trivial
  · intro k' hk' r hr
    obtain rfl : k = k' := Option.some.inj (hkey.symm.trans hk')
    exact List.any_eq_true.2 ⟨k, hk, Key.rows_of_names hr⟩

/-- What is within the rows of one order is among the others for the other. -/
theorem DisjointOrders.within (h : DisjointOrders c root root')
    (ho : o.Within c (orderRows c root')) : o.Within c (orderRows c root).others := by
  refine ⟨ho.plain, fun k hk r hr => ?_⟩
  have hin := ho.rows k hk r hr
  obtain ⟨k', hk', hrow'⟩ := List.any_eq_true.1 hin
  have hnone : orderRows c root k.table r.id r.productName = false := by
    by_contra hsome
    have hany : orderRows c root k.table r.id r.productName = true := by simpa using hsome
    obtain ⟨k'', hk'', hrow''⟩ := List.any_eq_true.1 hany
    exact h k'' hk'' k' hk' (Key.same_of_common hrow'' hrow')
  rw [RowSet.others, hnone]
  rfl

/-- The text of an integer location reads back as that integer. -/
theorem IntegerSource.intAt (h : IntegerSource root) {text : String} {n : Int}
    (htext : root.stringAt sourceLocationPath = .ok text) (hn : stoi text = .ok n) :
    root.intAt sourceLocationPath = .ok n := by
  obtain ⟨v, hv, hread⟩ := Except.seq_ok htext
  obtain ⟨i, rfl⟩ := h v hv
  cases hread
  obtain ⟨rfl, hint⟩ := stoi_toString_ok hn
  rw [Value.intAt, hv]
  exact if_pos hint

end

/-! ## The pipeline stays within them -/

/-- A part of a handler asks for nothing about rows other than the order's. -/
abbrev Stays (env : Env) (root : Value) {α : Type} (p : Handling α) : Prop :=
  p.Only (Operation.Within env.collation (orderRows env.collation root))

section

variable {env : Env} {root : Value} {origin : Origin} {buffer : String}

theorem ask_stays {α : Type} {o : Operation} {f : o.Reply → Handling α}
    (ho : o.Within env.collation (orderRows env.collation root))
    (hf : ∀ r, Stays env root (f r)) : Stays env root (ask o >>= f) := ⟨ho, hf⟩

/-- Asking for something that is about no row. -/
theorem askPlain_stays {α : Type} {o : Operation} {f : o.Reply → Handling α} (hplain : o.Plain)
    (hkey : o.key? = none) (hf : ∀ r, Stays env root (f r)) : Stays env root (ask o >>= f) :=
  ask_stays (within_of_no_key hplain hkey) hf

/-- A send, and the lookup before it, are about no row. -/
theorem delivers_stays {α : Type} {p : Handling α} (hp : p.Only Operation.Delivers) :
    Stays env root p :=
  hp.mono fun o ho => by
    cases o with
    | findClientById | sendto | write => exact within_of_no_key trivial rfl
    | _ => exact ho.elim

/-- A part that stays within the rows of the order, and a reply on its result. -/
theorem stage_stays {α : Type} {check : Handling α} (condition : α → Bool) (text : α → String)
    (after : α → Loop) (hcheck : Stays env root check) :
    Stays env root (check >>= fun a => replyIf origin.reply (condition a) (text a) >>= fun go =>
      Program.pure (after a, go)) :=
  hcheck.bind fun _ => delivers_stays replied_delivers

/-- The stock check reads the row of the source. -/
theorem checkProductStock_stays (hint : IntegerSource root) (json : JsonCpp)
    (errorMessage : String) : Stays env root (checkProductStock json root errorMessage) := by
  unfold checkProductStock stockVerdict
  refine Only.bind (Only.ofExcept_bind fun request hrequest => ?_) fun verdict => ?_
  · cases request with
    | error rejection => trivial
    | ok r =>
      obtain ⟨htype, ⟨text, htext, hid⟩, hname, _⟩ := StockRequest.ofJson_ok hrequest
      have hlocation := hint.intAt htext hid
      show Stays env root r.check
      unfold StockRequest.check
      split
      · next hhub =>
        have hkey := sideKey_eq .hubs htype hlocation hname (by rw [hhub]; rfl)
        refine ask_stays (within_of_mem rfl ?_) fun _ => trivial
        exact List.mem_append_left _ (by rw [hkey]; exact List.mem_singleton_self _)
      · split
        · next hwarehouse =>
          have hkey := sideKey_eq .warehouses htype hlocation hname
            (by rw [hwarehouse]; rfl)
          refine ask_stays (within_of_mem rfl ?_) fun _ => trivial
          exact List.mem_append_left _ (by rw [hkey]; exact List.mem_singleton_self _)
        · trivial
  · cases verdict <;> trivial

/-- One side of a transfer updates the row that side names. -/
theorem updateInventory_stays {type productName : String} {location quantity otherwise : Int}
    (hkey : ∀ table, Table.ofType type = some table →
      (⟨table, location, productName⟩ : Key) ∈ orderKeys root) :
    Stays env root (updateInventory type location productName quantity otherwise) := by
  unfold updateInventory
  split
  · next hhub =>
    exact ask_stays (within_of_mem rfl (hkey .hubs (by rw [hhub]; rfl))) fun _ => trivial
  · split
    · next hwarehouse =>
      exact ask_stays (within_of_mem rfl (hkey .warehouses (by rw [hwarehouse]; rfl)))
        fun _ => trivial
    · trivial

theorem realTimeUpdate_stays : Stays env root (realTimeUpdate root) := by
  unfold realTimeUpdate
  refine Only.ofExcept_bind fun t ht => ?_
  obtain ⟨hsourceType, hsource, hdestinationType, hname, _⟩ := Transfer.ofJson_ok ht
  have hdestination := Transfer.ofJson_destination ht
  unfold Transfer.perform
  refine Only.bind (updateInventory_stays fun table htable => ?_) fun result => ?_
  · rw [orderKeys, sideKey_eq _ hsourceType hsource hname htable]
    exact List.mem_append_left _ (List.mem_singleton_self _)
  · split
    · refine updateInventory_stays fun table htable => ?_
      rw [orderKeys, sideKey_eq _ hdestinationType hdestination hname htable]
      exact List.mem_append_right _ (List.mem_singleton_self _)
    · trivial

/-- The warehouse both checks look at is the source of the order. -/
theorem WatchedStock.key_mem (hint : IntegerSource root) {w : WatchedStock}
    (hw : WatchedStock.ofJson root = .ok (some w)) :
    (⟨.warehouses, w.warehouseId, w.productName⟩ : Key) ∈ orderKeys root := by
  obtain ⟨htype, ⟨text, htext, hid⟩, hname⟩ := WatchedStock.ofJson_some hw
  rw [orderKeys, sideKey_eq .warehouses htype (hint.intAt htext hid) hname rfl]
  exact List.mem_append_left _ (List.mem_singleton_self _)

theorem checkLowStockAlert_stays (hint : IntegerSource root) (json : JsonCpp)
    (alertOut : String) : Stays env root (checkLowStockAlert json root alertOut) := by
  unfold checkLowStockAlert
  refine Only.ofExcept_bind fun w hw => ?_
  cases w with
  | none => trivial
  | some w =>
    refine ask_stays (within_of_mem rfl (WatchedStock.key_mem hint hw)) fun rows => ?_
    show Stays env root (if readStock rows = -1 then _ else _)
    split
    · trivial
    · split <;> trivial

theorem reStock_stays (hint : IntegerSource root) (json : JsonCpp) (alertOut : String) :
    Stays env root (reStock json root alertOut) := by
  unfold reStock
  refine Only.ofExcept_bind fun w hw => ?_
  cases w with
  | none => trivial
  | some w =>
    have hkey := WatchedStock.key_mem hint hw
    refine ask_stays (within_of_mem rfl hkey) fun rows => ?_
    show Stays env root (if readStock rows = -1 then _ else _)
    split
    · trivial
    · split
      · refine ask_stays (within_of_mem rfl hkey) fun n => ?_
        show Stays env root (if updateResult n = 1 then _ else _)
        split <;> trivial
      · trivial

theorem orderStages_stays (hint : IntegerSource root) (s : Loop) :
    Stays env root (orderStages env origin.reply root s) := by
  refine stages_only (fun stage hin s => ?_) s
  simp only [List.mem_cons, List.not_mem_nil, or_false] at hin
  rcases hin with rfl | rfl | rfl | rfl | rfl
  · exact stage_stays (fun r : Bool × String => !r.1) (·.2)
      (fun r => { s with isValid := r.1, errorMessage := r.2 }) (by
        cases validateOrderLimits env.json root s.errorMessage <;> trivial)
  · exact stage_stays (fun r : Bool × String => !r.1) (·.2)
      (fun r => { s with productStock := r.1, errorMessage := r.2 })
      (checkProductStock_stays hint _ _)
  · unfold updateStage
    split
    · exact stage_stays (fun result => result > 0) (fun _ => "Successful order!") (fun _ => s)
        realTimeUpdate_stays
    · trivial
  · exact stage_stays (·.1) (·.2) (fun r => { s with lowStock := r.1, alertOut := r.2 })
      (checkLowStockAlert_stays hint _ _)
  · exact stage_stays (·.1) (·.2) (fun r => { s with reStocked := r.1, alertOut := r.2 })
      (reStock_stays hint _ _)

theorem handleMessage_stays (hbrace : beginsWithBrace buffer = true)
    (hroot : env.json.parse buffer = .ok (some root)) (hint : IntegerSource root)
    (protocol : String) (s : Loop) :
    Stays env root (handleMessage env origin.reply protocol buffer s) := by
  unfold handleMessage orderBranch handleOrder
  rw [if_pos hbrace]
  refine Only.bind ?_ fun r => ?_
  · refine askPlain_stays trivial rfl fun stored => Only.ofExcept_bind fun _ _ => ?_
    rw [hroot]
    exact orderStages_stays hint s
  · dsimp only
    split
    · refine Only.bind ?_ fun _ => trivial
      obtain ⟨hlist, hreport⟩ := not_command_of_brace hbrace
      unfold processMessage
      rw [if_neg hlist, if_neg hreport]
      refine Only.ofExcept_bind fun f _ => ?_
      cases f with
      | none => trivial
      | some f => exact delivers_stays (forwardMessageToClient_delivers _ _ _)
    · trivial

/-- An iteration of either handler on an order stays within the rows of the order. -/
theorem iteration_stays (hbrace : beginsWithBrace buffer = true)
    (hroot : env.json.parse buffer = .ok (some root)) (hint : IntegerSource root) (s : Loop) :
    Stays env root (iteration env origin buffer s) := by
  cases origin with
  | udp cliAddr =>
    refine askPlain_stays trivial rfl fun registered => ?_
    rw [if_neg (by simp [atoi_of_brace hbrace])]
    have hreply := (Origin.udp cliAddr).reply_delivers "UDP Server received your message."
    exact (delivers_stays hreply).bind fun _ =>
      @handleMessage_stays env root (.udp cliAddr) buffer hbrace hroot hint "UDP" s
  | tcp fd =>
    have hreply := (Origin.tcp fd).reply_delivers "TCP Server received your message."
    refine (delivers_stays hreply).bind fun written => ?_
    split
    · exact @handleMessage_stays env root (.tcp fd) buffer hbrace hroot hint "TCP" s
    · trivial

end

/-! ## Two orders at once -/

/-- The order was transferred: both sides of its transfer were performed. -/
def Transferred (root : Value) (h : List (Answered Server)) : Prop :=
  ∃ t, Transfer.ofJson root = .ok t ∧ t.Completed h

/-- The two messages were handled as if one after the other: every operation
of either handler got the reply it gets then, the tables are those it leaves,
and the verdicts are the same. -/
structure HandledInTurn (env : Env) (root root' : Value) {p q : Handling Loop} (s : Shared)
    (fs gs : List Bool) (w : Weave p q Shared) (a b : Loop) : Prop
    extends Weave.InOrder (answer env) true (fun x y => x.tables = y.tables) s fs gs w a b where
  firstVerdict : Transferred root w.left.history ↔
    Transferred root (p.trace (answerAlone env) (s, fs))
  secondVerdict : Transferred root' w.right.history ↔
    Transferred root' (q.trace (answerAlone env) ((runAlone env p (s, fs)).2.1, gs))

theorem HandledInTurn.of_inOrder {env : Env} {K : RowSet} {root root' : Value}
    {p q : Handling Loop} {s : Shared} {fs gs : List Bool} {w : Weave p q Shared} {a b : Loop}
    (h : Weave.InOrder (answer env) true (fun x y => Seen K x y ∧ Seen K.others x y) s fs gs
      w a b) :
    HandledInTurn env root root' s fs gs w a b where
  first := h.first
  firstHistory := h.firstHistory
  second := h.second
  secondHistory := h.secondHistory
  state := Tables.eq_of_only h.state.1.2 h.state.2.2
  firstVerdict := by rw [h.firstHistory]; rfl
  secondVerdict := by rw [h.secondHistory]; rfl

/-- **Orders on disjoint rows do not interfere**: whatever the interleaving of
two handlers on two such orders, and whichever of their operations succeed,
once both are done it is as if the orders had been handled one after the
other, in either order. -/
theorem disjoint_orders_inTurn {env : Env} {origin origin' : Origin} {buffer buffer' : String}
    {root root' : Value} (loop loop' : Loop) (s : Shared)
    (hbrace : beginsWithBrace buffer = true) (hbrace' : beginsWithBrace buffer' = true)
    (hroot : env.json.parse buffer = .ok (some root))
    (hroot' : env.json.parse buffer' = .ok (some root')) (hint : IntegerSource root)
    (hint' : IntegerSource root') (hdisjoint : DisjointOrders env.collation root root')
    {es : List (Side × Bool)}
    {w : Weave (iteration env origin buffer loop) (iteration env origin' buffer' loop') Shared}
    {a b : Loop} (hrun : runSteps (Weave.step (answer env)) (.begin _ _ s) es = some w)
    (hleft : w.left.rest = .pure a) (hright : w.right.rest = .pure b) :
    HandledInTurn env root root' s (choices .left es) (choices .right es) w a b ∧
      HandledInTurn env root' root s (choices .right es) (choices .left es) w.swap b a := by
  obtain ⟨hseen, hothers⟩ := seen_shielded env (orderRows env.collation root)
  have hp : Stays env root (iteration env origin buffer loop) :=
    iteration_stays hbrace hroot hint loop
  have hq : (iteration env origin' buffer' loop').Only
      (Operation.Within env.collation (orderRows env.collation root).others) :=
    (iteration_stays hbrace' hroot' hint' loop').mono fun _ ho => hdisjoint.within ho
  constructor
  · exact .of_inOrder (Weave.inOrder hseen hothers true hp hq hrun hleft hright)
  · have hswap := Weave.inOrder_swap hseen hothers true hp hq hrun hleft hright
    refine .of_inOrder (K := orderRows env.collation root) ⟨hswap.first, hswap.firstHistory,
      hswap.second, hswap.secondHistory, hswap.state.2, hswap.state.1⟩

/-! ### Water from a warehouse and meat from a hub -/

/-- Five units of meat from the second hub for an external client. -/
def meatOrder : Value :=
  .object [("general_info", .object
    [("action", .object
        [("product", .object [("id", .int 3), ("name", .string "Meat"), ("quantity", .int 5)]),
        ("type", .string "req")]),
      ("destination", .object [("type", .string "external")]),
      ("source", .object [("location", .int 2), ("type", .string "hub")])])]

def meatOrderText : String :=
  "\x7b\"general_info\":\x7b\"source\":\x7b\"type\":\"hub\",\"location\":2\x7d," ++
    "\"destination\":\x7b\"type\":\"external\"\x7d," ++
    "\"action\":\x7b\"type\":\"req\",\"product\":\x7b\"id\":3," ++
    "\"name\":\"Meat\",\"quantity\":5\x7d\x7d\x7d\x7d"

/-- A server that can read both orders. -/
def twoOrdersEnv : Env := .reading [(externalOrderText, externalOrder), (meatOrderText, meatOrder)]

/-- Water in a warehouse and meat in a hub. -/
def twoStocks : Tables where
  hubs := [⟨some 2, some "Meat", some 40⟩]
  warehouses := [⟨some 1, some "Water", some 110⟩]

/-- Two handlers taking turns, until both are done. -/
def turns : List (Side × Bool) :=
  (List.replicate 6 [(Side.left, true), (Side.right, true)]).flatten ++
    List.replicate 5 (Side.left, true)

/-- The value a program ended with. -/
def result? {α : Type} : Handling α → Option α
  | .pure a => some a
  | _ => none

theorem eq_pure_of_result? {α : Type} {p : Handling α} {a : α} (h : result? p = some a) :
    p = .pure a := by
  cases p with
  | pure b => cases h; rfl
  | throw e => cases h
  | call o k => cases h

/-- The run of both handlers taking turns completes. -/
theorem turns_complete :
    ((runSteps (Weave.step (answer twoOrdersEnv)) (.begin
      (iteration twoOrdersEnv (.tcp 4) externalOrderText .start)
      (iteration twoOrdersEnv (.tcp 5) meatOrderText .start) (.start twoStocks)) turns).any
        fun w => (result? w.left.rest).isSome && (result? w.right.rest).isSome) = true := by
  decide +kernel

theorem twoOrdersEnv_reads :
    twoOrdersEnv.json.parse externalOrderText = .ok (some externalOrder) ∧
      twoOrdersEnv.json.parse meatOrderText = .ok (some meatOrder) := by
  have hne : (meatOrderText == externalOrderText) = false := by decide +kernel
  constructor
  · simp [twoOrdersEnv, Env.reading, JsonCpp.ofReader, List.lookup_cons]
  · simp [twoOrdersEnv, Env.reading, JsonCpp.ofReader, List.lookup_cons, hne]

theorem twoOrders_disjoint : DisjointOrders twoOrdersEnv.collation externalOrder meatOrder := by
  have hwater : orderKeys externalOrder = [⟨.warehouses, 1, "Water"⟩] := by decide +kernel
  have hmeat : orderKeys meatOrder = [⟨.hubs, 2, "Meat"⟩] := by decide +kernel
  intro k hk k' hk' hsame
  rw [hwater, List.mem_singleton] at hk
  rw [hmeat, List.mem_singleton] at hk'
  rw [hk, hk'] at hsame
  cases hsame.1

theorem disjoint_orders_inTurn_turns : ∃ w a b,
    runSteps (Weave.step (answer twoOrdersEnv)) (.begin
      (iteration twoOrdersEnv (.tcp 4) externalOrderText .start)
      (iteration twoOrdersEnv (.tcp 5) meatOrderText .start) (.start twoStocks)) turns = some w ∧
    HandledInTurn twoOrdersEnv externalOrder meatOrder (.start twoStocks) (choices .left turns)
        (choices .right turns) w a b ∧
      HandledInTurn twoOrdersEnv meatOrder externalOrder (.start twoStocks)
        (choices .right turns) (choices .left turns) w.swap b a := by
  obtain ⟨w, hrun, hdone⟩ := (Option.any_eq_true _ _).1 turns_complete
  obtain ⟨hleft, hright⟩ := (Bool.and_eq_true _ _).mp hdone
  obtain ⟨a, ha⟩ := Option.isSome_iff_exists.1 hleft
  obtain ⟨b, hb⟩ := Option.isSome_iff_exists.1 hright
  exact ⟨w, a, b, hrun, disjoint_orders_inTurn .start .start _ (by decide +kernel)
    (by decide +kernel) twoOrdersEnv_reads.1 twoOrdersEnv_reads.2
    (fun _ hv => ⟨1, (Except.ok.inj hv).symm⟩) (fun _ hv => ⟨2, (Except.ok.inj hv).symm⟩)
    twoOrders_disjoint hrun (eq_pure_of_result? ha) (eq_pure_of_result? hb)⟩

end LogisticService
