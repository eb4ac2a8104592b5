import LogisticService.Order.Sample
import LogisticService.Server.Reachable

/-!
# The stock band of the warehouses

Messages handled one after another, with every send and database call
succeeding, keep every warehouse above the restock threshold and within its
capacity. Validation refuses every order that would credit a warehouse, so a
message lowers at most one row, and the restock that follows reads that very
row: the location it parses from the order's text is the integer the transfer
used. Between the two the row is anywhere from zero to the capacity
(`BandedBut`).
-/

namespace LogisticService

open Effects

/-! ## Parts of a handler on their own -/

/-- Run from the tables `t`, with every send and database call succeeding, a
part of a handler ends only in `Q` of its value and the tables it leaves. -/
def Leaves (env : Env) {α : Type} (p : Handling α) (t : Tables) (Q : α → Tables → Prop) : Prop :=
  ∀ s : Shared, s.tables = t → p.Ends (answer env true) s fun a s' => Q a s'.tables

section

variable {env : Env} {origin : Origin} {t : Tables}

theorem Leaves.pure {α : Type} {a : α} {Q : α → Tables → Prop} (h : Q a t) :
    Leaves env (Program.pure a) t Q := fun _ hs => Program.Ends.pure (hs ▸ h)

theorem Leaves.ofExcept {α : Type} {x : Except Exn α} {Q : α → Tables → Prop}
    (h : ∀ a, x = .ok a → Q a t) : Leaves env (Program.ofExcept x) t Q :=
  fun _ hs => Program.Ends.ofExcept fun a hx => hs ▸ h a hx

theorem Leaves.bind {α β : Type} {p : Handling α} {f : α → Handling β} {Q : α → Tables → Prop}
    {Q' : β → Tables → Prop} (hp : Leaves env p t Q)
    (hf : ∀ a t', Q a t' → Leaves env (f a) t' Q') :
    Leaves env (p >>= f) t Q' :=
  fun s hs => (hp s hs).bind fun a s' h => hf a s'.tables h s' rfl

/-- An operation that is no update leaves the tables alone. -/
theorem ask_leaves {o : Operation} {Q : o.Reply → Tables → Prop} (ho : o.update? = none)
    (hQ : ∀ r, Q r t) : Leaves env (ask o) t Q := by
  intro s hs
  refine Program.Ends.call (Program.Ends.pure ?_)
  rcases answer_update env true s o with ⟨u, _, hu, _⟩ | ⟨_, htables, _⟩
  · cases ho.symm.trans hu
  · show Q _ (answer env true s o).2.tables
    rw [htables, hs]
    exact hQ _

/-- A reply that is sent lets the handler go on. -/
theorem reply_leaves (origin : Origin) {text : String} {Q : Bool → Tables → Prop} (hQ : Q true t) :
    Leaves env (origin.reply text) t Q := by
  intro s hs
  cases origin with
  | udp cliAddr => exact Program.Ends.call (Program.Ends.pure (hs ▸ hQ))
  | tcp clientSockfd => exact Program.Ends.call (Program.Ends.pure (hs ▸ hQ))

theorem replyIf_leaves {condition : Bool} {text : String} {Q : Bool → Tables → Prop}
    (hQ : Q true t) : Leaves env (replyIf origin.reply condition text) t Q := by
  unfold replyIf
  cases condition with
  | true => exact reply_leaves origin hQ
  | false => exact Leaves.pure hQ

theorem getWarehouseInventory_leaves {warehouseId : Int} {product : String}
    {Q : Int → Tables → Prop}
    (hQ : Q (readStock (some (selectRows env.collation warehouseId product t.warehouses))) t) :
    Leaves env (getWarehouseInventory warehouseId product) t Q := by
  rintro s rfl
  exact Program.Ends.call (Program.Ends.pure hQ)

theorem getHubInventory_leaves {hubId : Int} {product : String} :
    Leaves env (getHubInventory hubId product) t fun _ t' => t' = t :=
  Leaves.bind (ask_leaves (Q := fun _ t' => t' = t) rfl fun _ => rfl) fun _ _ ht => Leaves.pure ht

/-- An update call takes effect and returns `1`, or returns `-1`. -/
theorem Update.call_leaves {u : Update} {Q : Int → Tables → Prop}
    (htakes : u.Takes env.collation t → Q 1 (u.apply env.collation t))
    (hnot : ¬ u.Takes env.collation t → Q (-1) t) : Leaves env u.call t Q := by
  rintro s rfl
  obtain ⟨o, ho, hcall⟩ := u.call_eq
  rw [hcall]
  refine Program.Ends.call (Program.Ends.pure ?_)
  rcases answer_update env true s o with ⟨u', hp, hu', _, ht, htables⟩ | ⟨hp, htables, hn⟩
  · cases ho.symm.trans hu'
    rw [htables, callResult, if_neg (by rw [hp]; simp)]
    exact htakes ht
  · rw [htables, callResult, if_pos hp]
    exact hnot fun ht => hn u ho ⟨rfl, ht⟩

end

/-! ## Rows in the band -/

/-- One row per location and product, each between the restock threshold and
the capacity. -/
structure Banded (c : Collation) (rows : List Row) : Prop where
  one : OneRowEach c rows
  band : ∀ r ∈ rows, ∃ a, r.availableQuantity = some a ∧ RESTOCK_THRESHOLD < a ∧ a ≤ MAX_CAPACITY

/-- The same but for the rows of one location and product, which may be below
the threshold. -/
structure BandedBut (c : Collation) (location : Int) (product : String) (rows : List Row) :
    Prop where
  one : OneRowEach c rows
  stocked : ∀ r ∈ rows, ∃ a, r.availableQuantity = some a ∧ 0 ≤ a ∧ a ≤ MAX_CAPACITY ∧
    (r.names c location product = false → RESTOCK_THRESHOLD < a)

section

variable {c : Collation} {location : Int} {product : String} {rows : List Row}

theorem Banded.but (h : Banded c rows) : BandedBut c location product rows := by
  refine ⟨h.one, fun r hr => ?_⟩
  obtain ⟨a, hq, hlow, hhigh⟩ := h.band r hr
  unfold RESTOCK_THRESHOLD at hlow
  exact ⟨a, hq, by omega, hhigh, fun _ => hlow⟩

/-- A debit takes one row out of the band at most. -/
theorem Banded.debited (h : Banded c rows) {u : Update} (hneg : u.quantity < 0) :
    BandedBut c u.location u.productName (rows.map (u.onRow c)) := by
  refine ⟨h.one.updated _ _ _, fun r hr => ?_⟩
  obtain ⟨x, hx, rfl⟩ := List.mem_map.1 hr
  obtain ⟨a, hq, hlow, hhigh⟩ := h.band x hx
  unfold RESTOCK_THRESHOLD at hlow
  by_cases ha : u.Accepts c x
  · obtain ⟨hnames, b, hqb, hguard⟩ := Row.accepts_iff.1 ha
    cases hq.symm.trans hqb
    refine ⟨a + u.quantity, by rw [Update.onRow_of_accepts ha, Row.add, hq]; rfl, hguard,
      by omega, fun hno => ?_⟩
    rw [Update.names_onRow, hnames] at hno
    cases hno
  · rw [Update.onRow_of_not_accepts ha]
    exact ⟨a, hq, by omega, hhigh, fun _ => hlow⟩

/-- A read returns the quantity of the one row it names, and `-1` without one. -/
theorem BandedBut.read (h : BandedBut c location product rows) :
    (readStock (some (selectRows c location product rows)) = -1 ∧
        ∀ r ∈ rows, r.names c location product = false) ∨
      ∃ x ∈ rows, x.names c location product = true ∧
        x.availableQuantity = some (readStock (some (selectRows c location product rows))) ∧
        ∀ r ∈ rows, r.names c location product = true → r = x := by
  cases hsel : rows.filter (Row.names c location product) with
  | nil =>
    refine .inl ⟨by rw [selectRows, hsel]; rfl, fun r hr => ?_⟩
    simpa using List.filter_eq_nil_iff.1 hsel r hr
  | cons x rest =>
    obtain ⟨hx, hn⟩ := List.mem_filter.1 (hsel ▸ List.mem_cons_self : x ∈ rows.filter _)
    obtain ⟨a, hq, _⟩ := h.stocked x hx
    refine .inr ⟨x, hx, hn, ?_, fun r hr hnames => h.one.eq_of_names hr hx hnames hn⟩
    rw [selectRows, hsel, List.map_cons, hq]
    rfl

theorem BandedBut.banded (h : BandedBut c location product rows)
    (hnamed : ∀ r ∈ rows, r.names c location product = true → ∀ a, r.availableQuantity = some a →
      RESTOCK_THRESHOLD < a) : Banded c rows := by
  refine ⟨h.one, fun r hr => ?_⟩
  obtain ⟨a, hq, _, hhigh, hother⟩ := h.stocked r hr
  refine ⟨a, hq, ?_, hhigh⟩
  cases hn : r.names c location product with
  | true => exact hnamed r hr hn a hq
  | false => exact hother hn

/-- A restock by what the row it names is short of brings the row back to the
capacity. -/
theorem BandedBut.restocked {env : Env} {w : WatchedStock} {t : Tables}
    (h : BandedBut env.collation w.warehouseId w.productName t.warehouses) {x : Row} {stock : Int}
    (hx : x ∈ t.warehouses) (hn : x.names env.collation w.warehouseId w.productName = true)
    (hq : x.availableQuantity = some stock)
    (hunique : ∀ r ∈ t.warehouses, r.names env.collation w.warehouseId w.productName = true → r = x)
    (hlow : stock ≤ RESTOCK_THRESHOLD) :
    Leaves env (updateWarehouseInventory w.warehouseId w.productName (MAX_CAPACITY - stock)) t
      fun _ t' => Banded env.collation t'.warehouses := by
  obtain ⟨a, hqa, hpos, hhigh, _⟩ := h.stocked x hx
  cases hq.symm.trans hqa
  unfold RESTOCK_THRESHOLD at hlow
  unfold MAX_CAPACITY
  let u : Update := ⟨.warehouses, w.warehouseId, w.productName, 1000 - stock⟩
  have haccepts : u.Accepts env.collation x :=
    Row.accepts_iff.2 ⟨hn, stock, hq, by show 0 ≤ stock + (1000 - stock); omega⟩
  have honly : ∀ r ∈ t.warehouses, u.Accepts env.collation r → r = x :=
    fun r hr ha => hunique r hr ha.names
  have htakes : u.Takes env.collation t := by
    refine ⟨by show 1000 - stock ≠ 0; omega, ⟨x, hx, haccepts⟩, fun r hr ha => ?_⟩
    have hint : IsInt (stock + (1000 - stock)) := by
      unfold IsInt INT_MIN INT_MAX
      omega
    rw [honly r hr ha, Row.fits, hq]
    exact decide_eq_true hint
  refine Update.call_leaves (u := u) (fun _ => ?_) fun hnot => absurd htakes hnot
  have hrows : (u.apply env.collation t).warehouses = t.warehouses.map (u.onRow env.collation) :=
    Update.apply_rows env.collation u t .warehouses
  rw [hrows]
  refine ⟨h.one.updated _ _ _, fun r hr => ?_⟩
  obtain ⟨y, hy, rfl⟩ := List.mem_map.1 hr
  by_cases hyn : y.names env.collation w.warehouseId w.productName = true
  · obtain rfl := hunique y hy hyn
    refine ⟨1000, ?_, by decide, by decide⟩
    rw [Update.onRow_of_accepts haccepts, Row.add, hq]
    show some (stock + (1000 - stock)) = some 1000
    congr 1
    omega
  · obtain ⟨b, hqb, _, hb, hother⟩ := h.stocked y hy
    rw [Update.onRow_of_not_accepts fun ha : u.Accepts env.collation y => hyn ha.names]
    exact ⟨b, hqb, hother (by simpa using hyn), hb⟩

/-- `reStock` brings its row back into the band. -/
theorem WatchedStock.reStock_leaves {env : Env} {w : WatchedStock} {t : Tables}
    {alertOut : String}
    (h : BandedBut env.collation w.warehouseId w.productName t.warehouses) :
    Leaves env (w.reStock env.json alertOut) t
      fun _ t' => Banded env.collation t'.warehouses := by
  unfold WatchedStock.reStock
  refine Leaves.bind (getWarehouseInventory_leaves (Q := fun stock t' => t' = t ∧
    stock = readStock (some (selectRows env.collation w.warehouseId w.productName t.warehouses)))
    ⟨rfl, rfl⟩) ?_
  rintro stock _ ⟨rfl, hstock⟩
  rcases h.read with ⟨hread, hnone⟩ | ⟨x, hx, hn, hq, hunique⟩
  · rw [if_pos (hstock.trans hread)]
    exact Leaves.pure (h.banded fun r hr hnames => by rw [hnone r hr] at hnames; cases hnames)
  · rw [← hstock] at hq
    obtain ⟨a, hqa, hpos, _, _⟩ := h.stocked x hx
    cases hq.symm.trans hqa
    rw [if_neg (by omega)]
    split
    · next hlow =>
      refine Leaves.bind (h.restocked hx hn hq hunique hlow) fun result t' hB => ?_
      split <;> exact Leaves.pure hB
    · next hhigh =>
      refine Leaves.pure (h.banded fun r hr hnames b hqb => ?_)
      cases hunique r hr hnames
      cases hq.symm.trans hqb
      exact Int.not_le.1 hhigh

end

/-! ## The stages of an order -/

section

variable {env : Env} {origin : Origin} {root : Value} {t : Tables}

/-- A stage that goes on, and leaves `Q`. -/
def Goes (Q : Loop → Tables → Prop) (r : Loop × Bool) (t : Tables) : Prop := r.2 = true ∧ Q r.1 t

theorem stages_leaves {stage : Loop → Handling (Loop × Bool)}
    {rest : List (Loop → Handling (Loop × Bool))} {s : Loop} {Q Q' : Loop → Tables → Prop}
    (hstage : Leaves env (stage s) t (Goes Q))
    (hrest : ∀ s' t', Q s' t' → Leaves env (stages rest s') t' (Goes Q')) :
    Leaves env (stages (stage :: rest) s) t (Goes Q') := by
  refine Leaves.bind hstage ?_
  rintro ⟨s', go⟩ t' ⟨hgo, hQ⟩
  cases hgo
  exact hrest s' t' hQ

theorem validateStage_leaves {s : Loop} : Leaves env (validateStage env origin.reply root s) t
    (Goes fun s' t' => t' = t ∧ (s'.isValid = true → checkOrder root = .ok none)) := by
  unfold validateStage
  refine Leaves.bind (Leaves.ofExcept (Q := fun r t' => t' = t ∧
    validateOrderLimits env.json root s.errorMessage = .ok r) fun r hr => ⟨rfl, hr⟩) ?_
  rintro ⟨valid, message⟩ t ⟨rfl, hv⟩
  refine Leaves.bind (replyIf_leaves (Q := fun go t' => go = true ∧ t' = t) ⟨rfl, rfl⟩) ?_
  rintro go t ⟨rfl, rfl⟩
  refine Leaves.pure ⟨rfl, rfl, fun hvalid => ?_⟩
  obtain ⟨_, hlimits⟩ | ⟨hinvalid, _⟩ := validateOrderLimits_ok hv
  · exact hlimits
  · cases hvalid.symm.trans hinvalid

theorem StockRequest.check_leaves (r : StockRequest) :
    Leaves env r.check t fun _ t' => t' = t := by
  unfold StockRequest.check
  split
  · exact Leaves.bind getHubInventory_leaves fun _ _ ht => Leaves.pure ht
  · split
    · exact Leaves.bind (Q := fun _ t' => t' = t) (getWarehouseInventory_leaves rfl)
        fun _ _ ht => Leaves.pure ht
    · exact Leaves.pure rfl

theorem checkProductStock_leaves {errorMessage : String} :
    Leaves env (checkProductStock env.json root errorMessage) t fun _ t' => t' = t := by
  have hverdict : Leaves env (stockVerdict root) t fun _ t' => t' = t := by
    refine Leaves.bind (Leaves.ofExcept (Q := fun _ t' => t' = t) fun _ _ => rfl) ?_
    rintro request t rfl
    cases request with
    | error rejection => exact Leaves.pure rfl
    | ok r => exact r.check_leaves
  refine Leaves.bind hverdict ?_
  rintro verdict t rfl
  cases verdict with
  | none => exact Leaves.pure rfl
  | some r => exact Leaves.pure rfl

theorem stockStage_leaves {s : Loop} : Leaves env (stockStage env origin.reply root s) t
    (Goes fun s' t' => t' = t ∧ s'.isValid = s.isValid) := by
  refine Leaves.bind checkProductStock_leaves ?_
  rintro ⟨inStock, message⟩ t rfl
  refine Leaves.bind (replyIf_leaves (Q := fun go t' => go = true ∧ t' = t) ⟨rfl, rfl⟩) ?_
  rintro go t ⟨rfl, rfl⟩
  exact Leaves.pure ⟨rfl, rfl, rfl⟩

/-- The row of the order's source is in the band, or drawn from. -/
def DrawnFrom (c : Collation) (root : Value) (t : Tables) : Prop :=
  Banded c t.warehouses ∨ ∃ location product,
    root.stringAt sourceTypePath = .ok "warehouse" ∧
      root.intAt sourceLocationPath = .ok location ∧
      root.stringAt productNamePath = .ok product ∧ BandedBut c location product t.warehouses

/-- The updates of a transfer that validation let pass: a warehouse is only
ever debited. -/
theorem Transfer.perform_leaves {x : Transfer} (hq : 0 < x.quantity)
    (hdest : x.destinationType = "hub" ∨ x.destinationType = "external")
    (hB : Banded env.collation t.warehouses) : Leaves env x.perform t fun _ t' =>
      Banded env.collation t'.warehouses ∨ (x.sourceType = "warehouse" ∧
        BandedBut env.collation x.sourceLocation x.productName t'.warehouses) := by
  have hcredit : ∀ k, x.credit = some k → k.table = .hubs := by
    intro k hk
    obtain ⟨_, _, _, ⟨_, htable⟩ | ⟨htype, _⟩⟩ := Update.ofType_some hk
    · exact htable
    · rcases hdest with hd | hd <;> exact absurd (htype.symm.trans hd) (by decide)
  cases hd : x.debit with
  | none => rw [perform_of_no_debit hd]; exact Leaves.pure (.inl hB)
  | some d =>
    obtain ⟨hlocation, hproduct, hquantity, htype⟩ := Update.ofType_some hd
    rw [perform_of_debit hd]
    refine Leaves.bind (Update.call_leaves (u := d) (Q := fun _ t' =>
      Banded env.collation t'.warehouses ∨ (x.sourceType = "warehouse" ∧
        BandedBut env.collation x.sourceLocation x.productName t'.warehouses))
      (fun _ => ?_) fun _ => .inl hB) fun result t₁ h₁ => ?_
    · have hrows : (d.apply env.collation t).warehouses = _ :=
        Update.apply_rows env.collation d t .warehouses
      rw [hrows]
      rcases htype with ⟨_, htable⟩ | ⟨hsource, htable⟩
      · rw [if_neg (by rw [htable]; decide)]
        exact .inl hB
      · rw [if_pos htable.symm, ← hlocation, ← hproduct]
        exact .inr ⟨hsource, hB.debited (by omega)⟩
    · split
      · cases hk : x.credit with
        | none => exact Leaves.pure h₁
        | some k =>
          have hsame : (k.apply env.collation t₁).warehouses = t₁.warehouses := by
            refine (Update.apply_rows env.collation k t₁ .warehouses).trans (if_neg ?_)
            rw [hcredit k hk]
            decide
          exact Update.call_leaves (fun _ => by rw [hsame]; exact h₁) fun _ => h₁
      · exact Leaves.pure h₁

theorem updateStage_leaves {s : Loop} (hvalid : s.isValid = true → checkOrder root = .ok none)
    (hB : Banded env.collation t.warehouses) : Leaves env (updateStage origin.reply root s) t
      (Goes fun _ t' => DrawnFrom env.collation root t') := by
  unfold updateStage
  split
  · next hboth =>
    have hlimits := hvalid ((Bool.and_eq_true _ _).mp hboth).2
    have htransfer : Leaves env (realTimeUpdate root) t
        fun _ t' => DrawnFrom env.collation root t' := by
      refine Leaves.bind (Leaves.ofExcept (Q := fun x t' => t' = t ∧ Transfer.ofJson root = .ok x)
        fun x hx => ⟨rfl, hx⟩) ?_
      rintro x t ⟨rfl, hx⟩
      obtain ⟨hsource, hlocation, hdestination, hproduct, hquantity⟩ := Transfer.ofJson_ok hx
      obtain ⟨clientType, quantity, hclient, hknown, hread, hpos⟩ := checkOrder_none hlimits
      cases hclient.symm.trans hdestination
      cases hread.symm.trans hquantity
      refine fun s hs => (Transfer.perform_leaves hpos hknown hB s hs).mono fun _ s' h => ?_
      exact h.imp_right fun ⟨hwarehouse, hbut⟩ =>
        ⟨_, _, hwarehouse ▸ hsource, hlocation, hproduct, hbut⟩
    refine Leaves.bind htransfer fun result t' hdrawn => ?_
    refine Leaves.bind (replyIf_leaves (Q := fun go t'' => go = true ∧ t'' = t') ⟨rfl, rfl⟩) ?_
    rintro go t' ⟨rfl, rfl⟩
    exact Leaves.pure ⟨rfl, hdrawn⟩
  · exact Leaves.pure ⟨rfl, .inl hB⟩

theorem checkLowStockAlert_leaves {alertOut : String} :
    Leaves env (checkLowStockAlert env.json root alertOut) t fun _ t' => t' = t := by
  refine Leaves.bind (Leaves.ofExcept (Q := fun _ t' => t' = t) fun _ _ => rfl) ?_
  rintro w t rfl
  cases w with
  | none => exact Leaves.pure rfl
  | some w =>
    refine Leaves.bind (getWarehouseInventory_leaves (Q := fun _ t' => t' = t) rfl) ?_
    rintro stock t rfl
    split
    · exact Leaves.pure rfl
    · split <;> exact Leaves.pure rfl

theorem lowStockStage_leaves {s : Loop} : Leaves env (lowStockStage env origin.reply root s) t
    (Goes fun _ t' => t' = t) := by
  refine Leaves.bind checkLowStockAlert_leaves ?_
  rintro ⟨low, alertOut⟩ t rfl
  refine Leaves.bind (replyIf_leaves (Q := fun go t' => go = true ∧ t' = t) ⟨rfl, rfl⟩) ?_
  rintro go t ⟨rfl, rfl⟩
  exact Leaves.pure ⟨rfl, rfl⟩

theorem reStockStage_leaves {s : Loop} (hint : IntegerSource root)
    (hdrawn : DrawnFrom env.collation root t) :
    Leaves env (reStockStage env origin.reply root s) t
      (Goes fun _ t' => Banded env.collation t'.warehouses) := by
  have hrestock : Leaves env (reStock env.json root s.alertOut) t
      fun _ t' => Banded env.collation t'.warehouses := by
    refine Leaves.bind (Leaves.ofExcept (Q := fun w t' => t' = t ∧
      WatchedStock.ofJson root = .ok w) fun w hw => ⟨rfl, hw⟩) ?_
    rintro w t ⟨rfl, hw⟩
    cases w with
    | none =>
      refine Leaves.pure (hdrawn.resolve_right ?_)
      rintro ⟨_, _, hwarehouse, _⟩
      exact WatchedStock.ofJson_none hw hwarehouse
    | some w =>
      obtain ⟨_, ⟨text, htext, hid⟩, hproduct⟩ := WatchedStock.ofJson_some hw
      refine WatchedStock.reStock_leaves ?_
      rcases hdrawn with hB | ⟨location, product, _, hlocation, hproduct', hbut⟩
      · exact hB.but
      · rw [hint.same hlocation htext hid, Except.ok.inj (hproduct.symm.trans hproduct')]
        exact hbut
  refine Leaves.bind hrestock fun r t' hB => ?_
  refine Leaves.bind (replyIf_leaves (Q := fun go t'' => go = true ∧ t'' = t') ⟨rfl, rfl⟩) ?_
  rintro go t' ⟨rfl, rfl⟩
  exact Leaves.pure ⟨rfl, hB⟩

/-! ## One message -/

theorem orderStages_leaves {s : Loop} (hint : IntegerSource root)
    (hB : Banded env.collation t.warehouses) : Leaves env (orderStages env origin.reply root s) t
      (Goes fun _ t' => Banded env.collation t'.warehouses) := by
  unfold orderStages
  refine stages_leaves validateStage_leaves ?_
  rintro s₁ t ⟨rfl, hvalid⟩
  refine stages_leaves stockStage_leaves ?_
  rintro s₂ t ⟨rfl, hsame⟩
  refine stages_leaves (updateStage_leaves (hsame ▸ hvalid) hB) fun s₃ t₃ hdrawn => ?_
  refine stages_leaves lowStockStage_leaves ?_
  rintro s₄ t rfl
  refine stages_leaves (reStockStage_leaves hint hdrawn) fun s₅ t₅ hB => ?_
  exact Leaves.pure ⟨rfl, hB⟩

theorem forwardMessageToClient_leaves {message protocol : String} {clientId : Int} :
    Leaves env (forwardMessageToClient message clientId protocol) t fun _ t' => t' = t := by
  refine Leaves.bind (ask_leaves (Q := fun _ t' => t' = t) rfl fun _ => rfl) ?_
  rintro target t rfl
  cases target with
  | none => exact Leaves.pure rfl
  | some info =>
    simp only
    split
    · exact Leaves.bind (ask_leaves (Q := fun _ t' => t' = t) rfl fun _ => rfl)
        fun _ _ ht => Leaves.pure ht
    · split
      · exact Leaves.bind (ask_leaves (Q := fun _ t' => t' = t) rfl fun _ => rfl)
          fun _ _ ht => Leaves.pure ht
      · exact Leaves.pure rfl

theorem processMessage_leaves {buffer protocol : String} {clientId : Int} :
    Leaves env (processMessage env.json buffer protocol clientId) t fun _ t' => t' = t := by
  unfold processMessage
  split
  · refine Leaves.bind (ask_leaves (Q := fun _ t' => t' = t) rfl fun _ => rfl) ?_
    rintro _ t rfl
    refine Leaves.bind (ask_leaves (Q := fun _ t' => t' = t) rfl fun _ => rfl) ?_
    rintro _ t rfl
    exact forwardMessageToClient_leaves
  · split
    · refine Leaves.bind (ask_leaves (Q := fun _ t' => t' = t) rfl fun _ => rfl) ?_
      rintro totals t rfl
      exact forwardMessageToClient_leaves
    · refine Leaves.bind (Leaves.ofExcept (Q := fun _ t' => t' = t) fun _ _ => rfl) ?_
      rintro f t rfl
      cases f with
      | none => exact Leaves.pure rfl
      | some f => exact forwardMessageToClient_leaves

end

/-- What the text of an order has to be: its source location, if it parses, is
an integer. -/
def IntegerOrder (env : Env) (buffer : String) : Prop :=
  ∀ root, env.json.parse buffer = .ok (some root) → IntegerSource root

section

variable {env : Env} {origin : Origin} {buffer : String} {t : Tables}

theorem orderBranch_leaves {s : Loop} (hint : IntegerOrder env buffer)
    (hB : Banded env.collation t.warehouses) :
    Leaves env (orderBranch env origin.reply buffer s) t
      fun _ t' => Banded env.collation t'.warehouses := by
  unfold orderBranch
  split
  · refine Leaves.bind (ask_leaves (Q := fun _ t' => t' = t) rfl fun _ => rfl) ?_
    rintro stored t rfl
    refine Leaves.bind (Leaves.ofExcept (Q := fun _ t' => t' = t) fun _ _ => rfl) ?_
    rintro _ t rfl
    refine Leaves.bind (Leaves.ofExcept (Q := fun v t' => t' = t ∧
      env.json.parse buffer = .ok v) fun v hv => ⟨rfl, hv⟩) ?_
    rintro v t ⟨rfl, hv⟩
    cases v with
    | none => exact Leaves.pure hB
    | some root =>
      exact fun s hs => (orderStages_leaves (hint root hv) hB s hs).mono fun _ _ h => h.2
  · exact Leaves.pure hB

theorem handleMessage_leaves (origin : Origin) {protocol : String} {s : Loop}
    (hint : IntegerOrder env buffer) (hB : Banded env.collation t.warehouses) :
    Leaves env (handleMessage env origin.reply protocol buffer s) t
      fun _ t' => Banded env.collation t'.warehouses := by
  unfold handleMessage
  refine Leaves.bind (orderBranch_leaves hint hB) ?_
  rintro ⟨s₁, go⟩ t' hB'
  simp only
  split
  · refine Leaves.bind processMessage_leaves ?_
    rintro _ t rfl
    exact Leaves.pure hB'
  · exact Leaves.pure hB'

/-- One message keeps the band. -/
theorem iteration_leaves {s : Loop} (hint : IntegerOrder env buffer)
    (hB : Banded env.collation t.warehouses) : Leaves env (iteration env origin buffer s) t
      fun _ t' => Banded env.collation t'.warehouses := by
  cases origin with
  | udp cliAddr =>
    refine Leaves.bind (ask_leaves (Q := fun _ t' => t' = t) rfl fun _ => rfl) ?_
    rintro registered t rfl
    split
    · refine Leaves.bind (ask_leaves (Q := fun _ t' => t' = t) rfl fun _ => rfl) ?_
      rintro clientId t rfl
      exact Leaves.pure hB
    · refine Leaves.bind (reply_leaves (.udp cliAddr)
        (Q := fun go t' => go = true ∧ t' = t) ⟨rfl, rfl⟩) ?_
      rintro go t ⟨rfl, rfl⟩
      exact handleMessage_leaves (.udp cliAddr) hint hB
  | tcp clientSockfd =>
    refine Leaves.bind (reply_leaves (.tcp clientSockfd)
      (Q := fun go t' => go = true ∧ t' = t) ⟨rfl, rfl⟩) ?_
    rintro go t ⟨rfl, rfl⟩
    exact handleMessage_leaves (.tcp clientSockfd) hint hB

end

/-! ## Sequences of messages -/

/-- A message, with where it came from and the loop variables of the handler
it comes to. -/
structure Message where
  origin : Origin
  buffer : String
  loop : Loop

/-- A message is handled to completion on its own, with every send and
database call succeeding, unless an exception leaves the handler. -/
def handleAlone (env : Env) (s : Shared) (m : Message) : Option Shared :=
  match (iteration env m.origin m.buffer m.loop).run (answer env true) s with
  | (.ok _, s') => some s'
  | (.error _, _) => none

/-- **The stock band**: whatever orders with integer locations are handled one
after another, every warehouse is above the restock threshold and within its
capacity after each of them. -/
theorem warehouse_band {env : Env} {s : Shared} {messages : List Message}
    (hstart : Banded env.collation s.tables.warehouses)
    (hint : ∀ m ∈ messages, IntegerOrder env m.buffer) :
    Throughout (handleAlone env) (fun s => Banded env.collation s.tables.warehouses) s
      messages := by
  refine throughout_of_along (C := fun _ m => IntegerOrder env m.buffer) ?_ (fun _ h => h) hstart
    (Along.of_forall (C := fun m : Message => IntegerOrder env m.buffer) hint)
  intro s m s' hB h hint
  unfold handleAlone at h
  split at h
  · next r s'' hrun =>
    cases h
    exact iteration_leaves hint hB s rfl _ _ hrun
  · cases h

theorem externalOrder_integer : IntegerOrder externalEnv externalOrderText := by
  intro root hroot v hv
  cases externalEnv_reads.symm.trans hroot
  exact ⟨1, (Except.ok.inj hv).symm⟩

/-- An order that takes a warehouse below the threshold, twice. -/
theorem warehouse_band_externalOrder :
    Throughout (handleAlone externalEnv)
      (fun s => Banded externalEnv.collation s.tables.warehouses) (Shared.start (waterTables 120))
      [⟨.tcp 5, externalOrderText, .start⟩, ⟨.tcp 5, externalOrderText, .start⟩] := by
  refine warehouse_band ⟨List.pairwise_singleton _ _, fun r hr => ?_⟩ fun m hm => ?_
  · cases List.mem_singleton.1 hr
    exact ⟨120, rfl, by decide, by decide⟩
  · rcases List.mem_cons.1 hm with rfl | hm
    · exact externalOrder_integer
    · rw [List.mem_singleton.1 hm]; exact externalOrder_integer

end LogisticService
