import LogisticService.Order.Sample
import LogisticService.Server.Observing
import LogisticService.Verify.Integrity

/-!
# Rejected orders move nothing

The handler does not stop at a rejection: the second check, the low stock check
and the restock still run on the rejected order. Only the restock may change
the tables then, and it changes one row: that of the named product in the
source warehouse, from at most the threshold to the capacity
(`SourceReplenished`). This holds whatever was wrong with the order and
whichever of the calls and sends fail.
-/

namespace LogisticService

open Effects

/-- The row of the product that the order names, in the warehouse that is its
source, held at most 100 and now holds 1000. -/
def SourceReplenished (c : Collation) (root : Value) (before after : List Row) : Prop :=
  ∃ text location product i row a,
    root.stringAt sourceTypePath = .ok "warehouse" ∧
      root.stringAt sourceLocationPath = .ok text ∧ stoi text = .ok location ∧
      root.stringAt productNamePath = .ok product ∧
      before[i]? = some row ∧ row.names c location product = true ∧
      row.availableQuantity = some a ∧ a ≤ 100 ∧
      after = before.set i { row with availableQuantity := some 1000 }

/-- Nothing was moved: the hubs are as they were, the warehouses are but for a
replenished source. -/
structure MovesNothing (c : Collation) (root : Value) (before after : Tables) : Prop where
  hubs : after.hubs = before.hubs
  warehouses : after.warehouses = before.warehouses ∨
    SourceReplenished c root before.warehouses after.warehouses

theorem MovesNothing.refl (c : Collation) (root : Value) (t : Tables) : MovesNothing c root t t :=
  ⟨rfl, .inl rfl⟩

/-! ## Parts of a handler on their own, whatever fails -/

/-- Run from the tables `t`, whichever of its operations succeed, a part of a
handler ends only in `Q` of its value and the tables it leaves. -/
def Yields (env : Env) {α : Type} (p : Handling α) (t : Tables) (Q : α → Tables → Prop) : Prop :=
  ∀ s : Alone, s.1.tables = t → p.Ends (answerAlone env) s fun a s' => Q a s'.1.tables

section

variable {env : Env} {α β : Type} {t : Tables} {Q : α → Tables → Prop}

theorem Yields.pure {a : α} (h : Q a t) : Yields env (Program.pure a) t Q :=
  fun _ hs => Program.Ends.pure (hs ▸ h)

theorem Yields.ofExcept {x : Except Exn α} (h : ∀ a, x = .ok a → Q a t) :
    Yields env (Program.ofExcept x) t Q :=
  fun _ hs => Program.Ends.ofExcept fun a hx => hs ▸ h a hx

theorem Yields.bind {p : Handling α} {f : α → Handling β} {Q' : β → Tables → Prop}
    (hp : Yields env p t Q) (hf : ∀ a t', Q a t' → Yields env (f a) t' Q') :
    Yields env (p >>= f) t Q' :=
  fun s hs => (hp s hs).bind fun a s' h => hf a s'.1.tables h s' rfl

theorem Yields.mono {p : Handling α} {Q' : α → Tables → Prop} (hp : Yields env p t Q)
    (h : ∀ a t', Q a t' → Q' a t') : Yields env p t Q' :=
  fun s hs => (hp s hs).mono fun a s' => h a s'.1.tables

/-- A part that only observes leaves the tables as they were. -/
theorem Observes.yields {p : Handling α} (h : Observes p) (hQ : ∀ a, Q a t) :
    Yields env p t Q := by
  rintro s rfl a s' hrun
  have hsame := h.run env s
  rw [runAlone, hrun] at hsame
  rw [hsame]
  exact hQ a

/-- What an update call does when it takes effect, and when it does not. -/
theorem Update.call_yields {u : Update} {Q : Int → Tables → Prop}
    (htakes : u.Takes env.collation t → Q 1 (u.apply env.collation t)) (hnot : Q (-1) t) :
    Yields env u.call t Q := by
  rintro s rfl a s' hrun
  obtain ⟨v, shared, halone, ⟨rfl, _, ht, htables⟩ | ⟨rfl, _, htables⟩⟩ := u.call_alone env s
  · cases halone.symm.trans hrun
    rw [htables]
    exact htakes ht
  · cases halone.symm.trans hrun
    rw [htables]
    exact hnot

end

/-! ## The restock -/

section

variable {env : Env} {root : Value} {origin : Origin} {t : Tables}

/-- Where a location and product have one row, that row is the first. -/
theorem OneRowEach.firstNamed {c : Collation} {rows : List Row} (hone : OneRowEach c rows)
    {location : Int} {product : String} {i : Nat} {row : Row} (hi : rows[i]? = some row)
    (hnames : row.names c location product = true) : FirstNamed c location product rows i row :=
  ⟨hi, hnames, fun _ _ hj hnames' => Nat.le_of_eq (hone.unique hj hi hnames' hnames).symm⟩

/-- An update by what the stock read is short of the capacity brings the one
row it names to the capacity. -/
theorem MovesNothing.of_restock {w : WatchedStock} {stock : Int}
    (hw : WatchedStock.ofJson root = .ok (some w)) (hone : OneRowEach env.collation t.warehouses)
    (hread : stock = readStock (some (selectRows env.collation w.warehouseId w.productName
      t.warehouses)))
    (hlow : stock ≤ RESTOCK_THRESHOLD) {u : Update}
    (hu : u = ⟨.warehouses, w.warehouseId, w.productName, MAX_CAPACITY - stock⟩)
    (htakes : u.Takes env.collation t) :
    MovesNothing env.collation root t (u.apply env.collation t) := by
  obtain ⟨htype, ⟨text, htext, hid⟩, hproduct⟩ := WatchedStock.ofJson_some hw
  obtain ⟨_, ⟨row, hrow, haccepts⟩, _⟩ := htakes
  subst hu
  have hnames : row.names env.collation w.warehouseId w.productName = true := haccepts.names
  obtain ⟨_, a, hq, _⟩ := Row.accepts_iff.1 haccepts
  obtain ⟨i, hi⟩ := List.mem_iff_getElem?.1 hrow
  have hstock : stock = a := hread.trans ((hone.firstNamed hi hnames).readStock_eq hq)
  have hset := Update.map_onRow_eq_set hi haccepts fun j r' hj ha' =>
    hone.unique hj hi ha'.names hnames
  refine ⟨rfl, .inr ⟨text, w.warehouseId, w.productName, i, row, a, htype, htext, hid, hproduct, hi,
    hnames, hq, hstock ▸ hlow, ?_⟩⟩
  have hadd : row.add (MAX_CAPACITY - stock) = { row with availableQuantity := some 1000 } := by
    rw [Row.add, hq, hstock]
    show { row with availableQuantity := some (a + (1000 - a)) } = _
    congr 2
    omega
  rw [← hadd]
  exact hset

theorem reStock_yields (hone : OneRowEach env.collation t.warehouses) (alertOut : String) :
    Yields env (reStock env.json root alertOut) t
      fun _ t' => MovesNothing env.collation root t t' := by
  refine Yields.bind (Yields.ofExcept (Q := fun w t' => t' = t ∧ WatchedStock.ofJson root = .ok w)
    fun w hw => ⟨rfl, hw⟩) ?_
  rintro w t ⟨rfl, hw⟩
  cases w with
  | none => exact Yields.pure (.refl _ _ _)
  | some w =>
    -- A read that fails returns -1, as one that finds no row does.
    have hstock : Yields env (getWarehouseInventory w.warehouseId w.productName) t fun stock t' =>
        t' = t ∧ (stock = -1 ∨ stock = readStock (some (selectRows env.collation w.warehouseId
          w.productName t.warehouses))) := by
      rintro s rfl stock s' hrun
      obtain ⟨hvalue, hstate⟩ := Prod.mk.inj hrun
      subst hstate
      refine ⟨rfl, ?_⟩
      obtain rfl := Except.ok.inj hvalue
      show readStock (if s.2.headD true then some _ else none) = -1 ∨
        readStock (if s.2.headD true then some _ else none) = _
      cases s.2.headD true with
      | false => exact .inl rfl
      | true => exact .inr rfl
    refine Yields.bind hstock ?_
    rintro stock t ⟨rfl, hread⟩
    split
    · exact Yields.pure (.refl _ _ _)
    next hfound =>
    split
    · next hlow =>
      refine Yields.bind (Update.call_yields
        (u := ⟨.warehouses, w.warehouseId, w.productName, MAX_CAPACITY - stock⟩)
        (Q := fun _ t' => MovesNothing env.collation root t t')
        (fun htakes => .of_restock hw hone (hread.resolve_left hfound) hlow rfl htakes)
        (.refl _ _ _)) ?_
      intro result t' hmoves
      split
      · exact Yields.pure hmoves
      · exact Yields.pure hmoves
    · exact Yields.pure (.refl _ _ _)

/-! ## The stages of a rejected order -/

/-- Either check may still pass: the order broke no rule and its stock sufficed. -/
def Passed (root : Value) (s : Loop) : Prop := s.productStock = true ∧ checkOrder root = .ok none

/-- Unless both checks passed, nothing was moved. -/
def Unmoved (c : Collation) (root : Value) (t : Tables) (s : Loop) (t' : Tables) : Prop :=
  Passed root s ∨ MovesNothing c root t t'

theorem replyIf_yields {condition : Bool} {text : String} {Q : Bool → Tables → Prop}
    (hQ : ∀ go, Q go t) : Yields env (replyIf origin.reply condition text) t Q :=
  (replyIf_observes origin.reply_observes _ _).yields hQ

/-- One stage and those after it: what a stage that stops leaves, and what the
next one starts from. -/
theorem stages_yields {stage : Loop → Handling (Loop × Bool)}
    {rest : List (Loop → Handling (Loop × Bool))} {s : Loop} {Q Q' : Loop → Tables → Prop}
    (hstage : Yields env (stage s) t fun r t' => Q r.1 t') (hstop : ∀ s' t', Q s' t' → Q' s' t')
    (hrest : ∀ s' t', Q s' t' → Yields env (stages rest s') t' fun r t'' => Q' r.1 t'') :
    Yields env (stages (stage :: rest) s) t fun r t' => Q' r.1 t' := by
  refine Yields.bind hstage ?_
  rintro ⟨s', go⟩ t' hQ
  cases go with
  | true => exact hrest s' t' hQ
  | false => exact Yields.pure (hstop s' t' hQ)

theorem validateStage_yields {s : Loop} : Yields env (validateStage env origin.reply root s) t
    fun r t' => t' = t ∧ (r.1.isValid = true → checkOrder root = .ok none) := by
  refine Yields.bind (Yields.ofExcept (Q := fun r t' => t' = t ∧
    validateOrderLimits env.json root s.errorMessage = .ok r) fun r hr => ⟨rfl, hr⟩) ?_
  rintro ⟨valid, message⟩ t ⟨rfl, hv⟩
  refine Yields.bind (replyIf_yields (Q := fun _ t' => t' = t) fun _ => rfl) ?_
  rintro go t rfl
  refine Yields.pure ⟨rfl, fun hvalid => ?_⟩
  obtain ⟨_, hlimits⟩ | ⟨hinvalid, _⟩ := validateOrderLimits_ok hv
  · exact hlimits
  · cases hvalid.symm.trans hinvalid

/-- A stage whose check only observes leaves the tables, and the loop variables it sets. -/
theorem checkStage_yields {α : Type} {check : Handling α} {condition : α → Bool}
    {text : α → String} {after : α → Loop} {P : Loop → Prop} (hcheck : Observes check)
    (hafter : ∀ a, P (after a)) :
    Yields env (check >>= fun a => replyIf origin.reply (condition a) (text a) >>= fun go =>
      (Program.pure (after a, go) : Handling (Loop × Bool))) t fun r t' => t' = t ∧ P r.1 := by
  refine Yields.bind (hcheck.yields (Q := fun _ t' => t' = t) fun _ => rfl) ?_
  rintro a t rfl
  refine Yields.bind (replyIf_yields (Q := fun _ t' => t' = t) fun _ => rfl) ?_
  rintro go t rfl
  exact Yields.pure ⟨rfl, hafter a⟩

theorem stockStage_yields {s : Loop} : Yields env (stockStage env origin.reply root s) t
    fun r t' => t' = t ∧ r.1.isValid = s.isValid :=
  checkStage_yields (P := fun s' => s'.isValid = s.isValid) (checkProductStock_observes _ _ _)
    fun _ => rfl

/-- Unless both checks passed, the transfer is left out. -/
theorem updateStage_yields {s : Loop} (hvalid : s.isValid = true → checkOrder root = .ok none) :
    Yields env (updateStage origin.reply root s) t
      fun r t' => Passed root r.1 ∨ t' = t := by
  unfold updateStage
  split
  · next hboth =>
    obtain ⟨hstock, hlimits⟩ := (Bool.and_eq_true _ _).mp hboth
    have hpassed : Passed root s := ⟨hstock, hvalid hlimits⟩
    refine Yields.bind (Q := fun _ _ => True) (fun _ _ _ _ _ => trivial) fun result _ _ => ?_
    refine Yields.bind (Q := fun _ _ => True) (fun _ _ _ _ _ => trivial) fun go _ _ => ?_
    exact Yields.pure (.inl hpassed)
  · exact Yields.pure (.inr rfl)

theorem lowStockStage_yields {s : Loop} : Yields env (lowStockStage env origin.reply root s) t
    fun r t' => t' = t ∧ r.1.productStock = s.productStock :=
  checkStage_yields (P := fun s' => s'.productStock = s.productStock)
    (checkLowStockAlert_observes _ _ _) fun _ => rfl

theorem reStockStage_yields {s : Loop} : Yields env (reStockStage env origin.reply root s) t
    fun r t' => r.1.productStock = s.productStock ∧
      (OneRowEach env.collation t.warehouses → MovesNothing env.collation root t t') := by
  refine Yields.bind (Q := fun _ t' => OneRowEach env.collation t.warehouses →
    MovesNothing env.collation root t t')
    (fun s' hs' a s'' hrun hone => reStock_yields hone _ s' hs' a s'' hrun) ?_
  rintro ⟨restocked, alertOut⟩ t' hmoves
  refine Yields.bind (replyIf_yields (Q := fun _ t'' => OneRowEach env.collation t.warehouses →
    MovesNothing env.collation root t t'') fun _ => hmoves) ?_
  intro go t'' hmoves
  exact Yields.pure ⟨rfl, hmoves⟩

/-- A rejected order, at the end of its stages. -/
theorem orderStages_yields {s : Loop} (hone : OneRowEach env.collation t.warehouses) :
    Yields env (orderStages env origin.reply root s) t
      fun r t' => Unmoved env.collation root t r.1 t' := by
  have hsame : ∀ {s' : Loop} {t' : Tables}, Passed root s' ∨ t' = t →
      Unmoved env.collation root t s' t' :=
    fun h => h.imp_right fun heq => by rw [heq]; exact .refl _ _ _
  refine stages_yields (Q := fun s' t' => t' = t ∧ (s'.isValid = true → checkOrder root = .ok none))
    validateStage_yields (fun _ _ h => hsame (.inr h.1)) ?_
  rintro s₁ t ⟨rfl, hvalid⟩
  refine stages_yields (Q := fun s' t' => t' = t ∧ (s'.isValid = true → checkOrder root = .ok none))
    (stockStage_yields.mono fun r t' h => ?_) (fun _ _ h => hsame (.inr h.1)) ?_
  · exact ⟨h.1, fun htrue => hvalid (h.2 ▸ htrue)⟩
  rintro s₂ t ⟨rfl, hvalid⟩
  refine stages_yields (Q := fun s' t' => Passed root s' ∨ t' = t) (updateStage_yields hvalid)
    (fun _ _ => hsame) ?_
  intro s₃ t₃ h₃
  refine stages_yields (Q := fun s' t' => Passed root s' ∨ t' = t)
    (lowStockStage_yields.mono fun r t' h => ?_) (fun _ _ => hsame) ?_
  · exact h₃.imp (fun hp => ⟨h.2.trans hp.1, hp.2⟩) h.1.trans
  intro s₄ t₄ h₄
  refine stages_yields (Q := Unmoved env.collation root t)
    (reStockStage_yields.mono fun r t' h => ?_) (fun _ _ h => h) fun s' t' h => Yields.pure h
  rcases h₄ with hp | rfl
  · exact .inl ⟨h.1.trans hp.1, hp.2⟩
  · exact .inr (h.2 hone)

/-! ## The whole iteration -/

variable {buffer : String}

theorem handleMessage_yields {protocol : String} {s : Loop}
    (hroot : env.json.parse buffer = .ok (some root))
    (hone : OneRowEach env.collation t.warehouses) :
    Yields env (handleMessage env origin.reply protocol buffer s) t
      (Unmoved env.collation root t) := by
  have horder : Yields env (orderBranch env origin.reply buffer s) t
      fun r t' => Unmoved env.collation root t r.1 t' := by
    unfold orderBranch
    split
    · refine Yields.bind (Q := fun _ t' => t' = t) (fun s' hs' stored s'' hrun => ?_) ?_
      · cases hrun
        exact hs'
      rintro stored t rfl
      refine Yields.bind (Yields.ofExcept (Q := fun _ t' => t' = t) fun _ _ => rfl) ?_
      rintro _ t rfl
      rw [hroot]
      exact orderStages_yields hone
    · exact Yields.pure (.inr (.refl _ _ _))
  refine Yields.bind horder ?_
  rintro ⟨s', go⟩ t' h
  dsimp only
  split
  · refine Yields.bind ((processMessage_observes _ _ _ _).yields (Q := fun _ t'' => t'' = t')
      fun _ => rfl) ?_
    rintro _ _ rfl
    exact Yields.pure h
  · exact Yields.pure h

theorem iteration_yields {s : Loop} (hroot : env.json.parse buffer = .ok (some root))
    (hone : OneRowEach env.collation t.warehouses) : Yields env (iteration env origin buffer s) t
      (Unmoved env.collation root t) := by
  cases origin with
  | udp cliAddr =>
    refine Yields.bind (Q := fun _ t' => t' = t) (fun s' hs' registered s'' hrun => ?_) ?_
    · cases hrun
      exact hs'
    rintro registered t rfl
    split
    · refine Yields.bind (Q := fun _ t' => t' = t) (fun s' hs' clientId s'' hrun => ?_) ?_
      · cases hrun
        exact hs'
      rintro clientId t rfl
      exact Yields.pure (.inr (.refl _ _ _))
    · refine Yields.bind (((Origin.udp cliAddr).reply_observes _).yields (Q := fun _ t' => t' = t)
        fun _ => rfl) ?_
      rintro _ t rfl
      exact @handleMessage_yields env root (.udp cliAddr) t buffer "UDP" s hroot hone
  | tcp fd =>
    refine Yields.bind (((Origin.tcp fd).reply_observes _).yields (Q := fun _ t' => t' = t)
      fun _ => rfl) ?_
    rintro written t rfl
    split
    · exact @handleMessage_yields env root (.tcp fd) t buffer "TCP" s hroot hone
    · exact Yields.pure (.inr (.refl _ _ _))

end

/-- **A rejected order moves nothing**: after a whole iteration of either
handler on an order that validation or the stock check has rejected, the
tables are what they were but for a replenished source. -/
theorem rejected_moves_nothing {env : Env} {origin : Origin} {buffer : String} {root : Value}
    {loop loop' : Loop} {s s' : Alone} (hroot : env.json.parse buffer = .ok (some root))
    (hone : OneRowEach env.collation s.1.tables.warehouses)
    (hrun : runAlone env (iteration env origin buffer loop) s = (.ok loop', s'))
    (hrejected : (∃ error message, validateOrderLimits env.json root error =
      .ok (false, message)) ∨ loop'.productStock = false) :
    MovesNothing env.collation root s.1.tables s'.1.tables := by
  refine (iteration_yields hroot hone s rfl loop' s' hrun).resolve_left ?_
  rintro ⟨hstock, hlimits⟩
  rcases hrejected with ⟨error, message, hinvalid⟩ | hno
  · unfold validateOrderLimits at hinvalid
    rw [hlimits] at hinvalid
    cases hinvalid
  · cases hstock.symm.trans hno

/-- Thirty units of water for an external client, five over the limit. -/
def greedyOrder : Value := waterOrder [("type", .string "external")] 30

def greedyOrderText : String :=
  "\x7b\"general_info\":\x7b\"source\":\x7b\"type\":\"warehouse\",\"location\":1\x7d," ++
    "\"destination\":\x7b\"type\":\"external\"\x7d," ++
    "\"action\":\x7b\"type\":\"req\",\"product\":\x7b\"id\":2," ++
    "\"name\":\"Water\",\"quantity\":30\x7d\x7d\x7d\x7d"

def greedyEnv : Env := .reading [(greedyOrderText, greedyOrder)]

/-- The order is rejected, and its source is replenished from fifty units. -/
theorem greedyOrder_moves_nothing : ∃ s' : Alone,
    MovesNothing .caseless greedyOrder (waterTables 50) s'.1.tables ∧
      s'.1.tables = waterTables 1000 := by
  have hroot : greedyEnv.json.parse greedyOrderText = .ok (some greedyOrder) := by
    simp [greedyEnv, Env.reading, JsonCpp.ofReader, List.lookup_cons]
  have hvalid : checkOrder greedyOrder = .ok (some ⟨ERR_INVALID_QTY_EXT_CRIT, "Invalid quantity",
      "External clients can order up to 25 units of critical products."⟩) := by decide
  have hrejected : ∃ message, validateOrderLimits greedyEnv.json greedyOrder "" =
      .ok (false, message) := by
    unfold validateOrderLimits
    rw [hvalid]
    exact ⟨_, rfl⟩
  obtain ⟨run, halone⟩ : ∃ run, runAlone greedyEnv (iteration greedyEnv (.tcp 5) greedyOrderText
      .start) (.start (waterTables 50), []) = run := ⟨_, rfl⟩
  have hrun : (run.1.map (·.isValid), run.2.1.tables) = (.ok false, waterTables 1000) := by
    rw [← halone]
    decide +kernel
  obtain ⟨hends, htables⟩ := Prod.mk.inj hrun
  obtain ⟨loop', hloop⟩ : ∃ loop', run.1 = .ok loop' := by
    cases h : run.1 with
    | ok loop' => exact ⟨loop', rfl⟩
    | error e =>
      rw [h] at hends
      cases hends
  refine ⟨run.2, ?_, htables⟩
  exact rejected_moves_nothing hroot (waterTables_one _ 50 .warehouses)
    (halone.trans (Prod.ext hloop rfl)) (.inl ⟨"", hrejected⟩)

end LogisticService
