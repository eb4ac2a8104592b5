import LogisticService.Order.Sample
import LogisticService.Server.Observing
import LogisticService.Server.Reachable

/-!
# Restocks and their alerts

`reStock` returns `true` when it replenished the source of an order, and also
when the stock needed no replenishment. In the second case the handler sends
the alert string as an earlier stage or an earlier order left it. As long as no
restock finds a stock above the threshold (`LowWhenRead`), a re-stock alert is
sent for an order just when the order had its source replenished.
-/

namespace LogisticService

open Effects Program

/-- The alert of a restock. -/
def WatchedStock.reStockAlert (json : JsonCpp) (w : WatchedStock) : String :=
  generateAlert json "Re-stock Alert: " "Stock replenished to full capacity (1000 units)"
    w.productId w.productName

/-! ## One call -/

/-- The row of the source of an order was raised from at most the threshold to
the capacity. -/
def Replenishes (c : Collation) (root : Value) (before after : Tables) : Prop :=
  ∃ w i row a, WatchedStock.ofJson root = .ok (some w) ∧
    FirstNamed c w.warehouseId w.productName before.warehouses i row ∧
    row.availableQuantity = some a ∧ a ≤ RESTOCK_THRESHOLD ∧
    after.warehouses[i]? = some { row with availableQuantity := some MAX_CAPACITY }

/-- The result and the alert string of a call of `reStock` match what it did to
the tables. -/
structure MatchesAction (env : Env) (root : Value) (before after : Tables) (alertOut : String)
    (result : Bool × String) : Prop where
  returned : result.1 = true ↔ Replenishes env.collation root before after
  overwritten : Replenishes env.collation root before after →
    ∃ w, WatchedStock.ofJson root = .ok (some w) ∧ result.2 = w.reStockAlert env.json
  otherwise : ¬ Replenishes env.collation root before after →
    result.2 = alertOut ∧ after = before

/-- The source of the order is a warehouse, and the read of its stock finds
more than the threshold. -/
def FindsEnough (env : Env) (root : Value) (s : Alone) : Prop :=
  ∃ w i row a, WatchedStock.ofJson root = .ok (some w) ∧ s.2.headD true = true ∧
    FirstNamed env.collation w.warehouseId w.productName s.1.tables.warehouses i row ∧
    row.availableQuantity = some a ∧ RESTOCK_THRESHOLD < a

section

variable {env : Env} {root : Value}

/-- Tables that stay as they are were not replenished. -/
theorem not_replenishes_self (c : Collation) (root : Value) (t : Tables) :
    ¬ Replenishes c root t t := by
  rintro ⟨w, i, row, a, _, hrow, hq, hle, hafter⟩
  have hsame := congrArg Row.availableQuantity (Option.some.inj (hrow.at_index.symm.trans hafter))
  rw [hq] at hsame
  obtain rfl : a = MAX_CAPACITY := Option.some.inj hsame
  exact absurd hle (by decide)

/-- A call that changed nothing matches when it returned `false` and left the
alert string alone. -/
theorem matchesAction_self_iff {t : Tables} {alertOut : String} {b : Bool} :
    MatchesAction env root t t alertOut (b, alertOut) ↔ b = false := by
  have hnot := not_replenishes_self env.collation root t
  constructor
  · intro h
    cases b with
    | true => exact absurd (h.returned.1 rfl) hnot
    | false => rfl
  · rintro rfl
    exact ⟨⟨fun h => (by cases h), fun h => absurd h hnot⟩, fun h => absurd h hnot,
      fun _ => ⟨rfl, rfl⟩⟩

/-- An update by what the stock read is short of the capacity, when it takes
effect, replenishes the row that was read. -/
theorem replenishes_of_takes {w : WatchedStock} {t : Tables} {stock : Int} {i : Nat} {row : Row}
    (hw : WatchedStock.ofJson root = .ok (some w))
    (hrow : FirstNamed env.collation w.warehouseId w.productName t.warehouses i row)
    (hq : row.availableQuantity = some stock) (hlow : stock ≤ RESTOCK_THRESHOLD) {u : Update}
    (hu : u = ⟨.warehouses, w.warehouseId, w.productName, MAX_CAPACITY - stock⟩) :
    Replenishes env.collation root t (u.apply env.collation t) := by
  refine ⟨w, i, row, stock, hw, hrow, hq, hlow, ?_⟩
  subst hu
  have haccepts : Update.Accepts env.collation
      ⟨.warehouses, w.warehouseId, w.productName, MAX_CAPACITY - stock⟩ row := by
    refine Row.accepts_iff.2 ⟨hrow.names, stock, hq, ?_⟩
    show 0 ≤ stock + (1000 - stock)
    omega
  have hadd : row.add (MAX_CAPACITY - stock) =
      { row with availableQuantity := some MAX_CAPACITY } := by
    rw [Row.add, hq]
    show { row with availableQuantity := some (stock + (1000 - stock)) } =
      { row with availableQuantity := some 1000 }
    congr 2
    omega
  show (t.warehouses.map _)[i]? = _
  rw [List.getElem?_map, hrow.at_index, Option.map_some, Update.onRow_of_accepts haccepts, ← hadd]

/-- What the read finds is the quantity of the first row named; one that fails
finds nothing. -/
theorem findsEnough_iff {s : Alone} {w : WatchedStock}
    (hw : WatchedStock.ofJson root = .ok (some w)) : FindsEnough env root s ↔
      RESTOCK_THRESHOLD < readStock (if s.2.headD true then
        some (selectRows env.collation w.warehouseId w.productName s.1.tables.warehouses)
        else none) := by
  constructor
  · rintro ⟨w', i, row, a, hw', hok, hrow, hq, hhigh⟩
    cases hw.symm.trans hw'
    rw [hok, if_pos rfl, hrow.readStock_eq hq]
    exact hhigh
  · intro hhigh
    obtain ⟨hok, i, row, hrow, hq⟩ :=
      FirstNamed.of_answered (Int.ne_of_gt (Int.lt_trans (by decide) hhigh))
    exact ⟨w, i, row, _, hw, hok, hrow, hq, hhigh⟩

/-- **A call of `reStock` matches its action just when it does not find the
stock above the threshold**, on all tables, whichever of its calls fail. -/
theorem reStock_matchesAction_iff {alertOut : String} {s s' : Alone} {result : Bool × String}
    (hrun : runAlone env (reStock env.json root alertOut) s = (.ok result, s')) :
    MatchesAction env root s.1.tables s'.1.tables alertOut result ↔ ¬ FindsEnough env root s := by
  obtain ⟨watched, s₀, hwatched, hrun⟩ := run_bind_ok _ hrun
  cases hw : WatchedStock.ofJson root with
  | error e =>
    rw [hw] at hwatched
    cases hwatched
  | ok watched' =>
  rw [hw] at hwatched
  cases hwatched
  cases watched with
  | none =>
    cases hrun
    rw [matchesAction_self_iff]
    refine ⟨fun _ ⟨w, _, _, _, hw', _⟩ => ?_, fun _ => rfl⟩
    cases hw.symm.trans hw'
  | some w =>
  have henough := @findsEnough_iff env root s w hw
  obtain ⟨stock, s₁, hread, hrun⟩ := run_bind_ok _ hrun
  obtain ⟨hstock, rfl⟩ := Prod.mk.inj hread
  replace hstock : stock = readStock (if s.2.headD true then
      some (selectRows env.collation w.warehouseId w.productName s.1.tables.warehouses)
      else none) :=
    (Except.ok.inj hstock).symm
  rw [henough, ← hstock]
  split at hrun
  · next hfailed =>
    cases hrun
    refine matchesAction_self_iff.trans ⟨fun _ => ?_, fun _ => rfl⟩
    rw [hfailed]
    decide
  next hfound =>
  split at hrun
  · next hlow =>
    refine ⟨fun _ => Int.not_lt.2 hlow, fun _ => ?_⟩
    obtain ⟨-, i, row, hrow, hq⟩ := FirstNamed.of_answered (hstock ▸ hfound)
    rw [← hstock] at hq
    obtain ⟨updated, s₂, hupdate, hrun⟩ := run_bind_ok _ hrun
    let u : Update := ⟨.warehouses, w.warehouseId, w.productName, MAX_CAPACITY - stock⟩
    obtain ⟨v, shared, halone, ⟨rfl, _, _, htables⟩ | ⟨rfl, _, htables⟩⟩ :=
      u.call_alone env (s.1, s.2.tail)
    · cases halone.symm.trans hupdate
      cases hrun
      have hreplenished : Replenishes env.collation root s.1.tables shared.tables := by
        rw [htables]
        exact replenishes_of_takes hw hrow hq hlow rfl
      exact ⟨⟨fun _ => hreplenished, fun _ => rfl⟩, fun _ => ⟨w, hw, rfl⟩,
        fun hno => absurd hreplenished hno⟩
    · cases halone.symm.trans hupdate
      cases hrun
      have hsame : shared.tables = s.1.tables := htables
      show MatchesAction env root s.1.tables shared.tables alertOut (false, alertOut)
      rw [hsame]
      exact matchesAction_self_iff.2 rfl
  · next hhigh =>
    cases hrun
    refine matchesAction_self_iff.trans ⟨fun hno => (by cases hno), fun hno => ?_⟩
    exact absurd (Int.not_le.1 hhigh) hno

end

/-! ## What a message sends and replenishes -/

/-- The text is a re-stock alert. -/
def IsReStockAlert (json : JsonCpp) (text : String) : Prop :=
  ∃ w : WatchedStock, text = w.reStockAlert json

/-- The writer's texts tell the two kinds of alerts apart. -/
def TellsAlertsApart (json : JsonCpp) : Prop :=
  ∀ (w : WatchedStock) productId productName,
    generateAlert json "Low Stock Alert: " "Stock levels are <= 20 per cent of max capacity"
      productId productName ≠ w.reStockAlert json

/-- A re-stock alert went to the sender of the message. -/
def AlertSent (env : Env) (origin : Origin) (h : List (Answered Server)) : Prop :=
  ∃ e ∈ h, ∃ text, e.1 = origin.send text ∧ IsReStockAlert env.json text

/-- The source of the order in the message was replenished: the row of the
product it names, by what a stock of at most the threshold is short of the
capacity. -/
def Replenished (env : Env) (buffer : String) (h : List (Answered Server)) : Prop :=
  ∃ e ∈ h, ∃ root w n, env.json.parse buffer = .ok (some root) ∧
    WatchedStock.ofJson root = .ok (some w) ∧ n ≤ RESTOCK_THRESHOLD ∧
    performed e = some ⟨.warehouses, w.warehouseId, w.productName, MAX_CAPACITY - n⟩

/-- The operation neither sends a re-stock alert nor adds to a warehouse. -/
structure Mute (env : Env) (o : Operation) : Prop where
  text : ∀ text, o.text? = some text → ¬ IsReStockAlert env.json text
  update : ∀ u, o.update? = some u → u.table = .hubs ∨ u.quantity < 0

/-- Every warehouse read found at most the threshold. -/
def ReadLow : Answered Server → Prop
  | ⟨.getWarehouseInventory _ _, rows⟩ => readStock rows ≤ RESTOCK_THRESHOLD
  | _ => True

/-- In a part of a handler, with the history `h`, the first read of each
restock of the message found at most the threshold. -/
def LowReads (env : Env) (origin : Origin) (buffer : String) {α : Type} (p : Handling α)
    (h : List (Answered Server)) : Prop :=
  ∀ h₁ e h₂ root w s (f : Loop × Bool → Handling α), h = h₁ ++ e :: h₂ →
    env.json.parse buffer = .ok (some root) → WatchedStock.ofJson root = .ok (some w) →
    Leads p h₁ (reStockStage env origin.reply root s >>= f) → ReadLow e

/-- A part of a handler, run to its end with low reads, sends a re-stock alert
just when it replenished. -/
def Faithful (env : Env) (origin : Origin) (buffer : String) {α : Type} (p : Handling α) : Prop :=
  ∀ h a, Leads p h (.pure a) → LowReads env origin buffer p h →
    (AlertSent env origin h ↔ Replenished env buffer h)

/-- A part of a handler all of whose operations are mute, and that ends in `Q`. -/
abbrev Mutes (env : Env) {α : Type} (p : Handling α) (Q : α → Prop) : Prop :=
  ∀ h, p.Meets (fun _ _ => True) (fun _ => Mute env) (fun _ => Q) h

section

variable {env : Env} {origin : Origin} {buffer : String} {α β : Type}

theorem Origin.send_text? (origin : Origin) (text : String) :
    (origin.send text).text? = some text := by
  cases origin <;> rfl

/-- Mute operations count for neither. -/
theorem Mute.counts {h : List (Answered Server)} (hmute : ∀ e ∈ h, Mute env e.1) :
    ¬ AlertSent env origin h ∧ ¬ Replenished env buffer h := by
  constructor
  · rintro ⟨e, he, text, hsend, halert⟩
    exact (hmute e he).text text (by rw [hsend, origin.send_text?]) halert
  · rintro ⟨e, he, root, w, n, _, _, hlow, hperformed⟩
    rcases (hmute e he).update _ (performed_update hperformed) with htable | hneg
    · cases htable
    · have hpositive : n ≤ 100 := hlow
      simp only [MAX_CAPACITY] at hneg
      omega

theorem AlertSent.append {h h' : List (Answered Server)} :
    AlertSent env origin (h ++ h') ↔ AlertSent env origin h ∨ AlertSent env origin h' := by
  simp only [AlertSent, List.mem_append, or_and_right, exists_or]

theorem Replenished.append {h h' : List (Answered Server)} :
    Replenished env buffer (h ++ h') ↔ Replenished env buffer h ∨ Replenished env buffer h' := by
  simp only [Replenished, List.mem_append, or_and_right, exists_or]

/-- What a mute part has asked for. -/
theorem Mutes.all {p q : Handling α} {Q : α → Prop} {h : List (Answered Server)}
    (hp : Mutes env p Q) (hl : Leads p h q) : ∀ e ∈ h, Mute env e.1 := by
  intro e he
  have hkept := (hp []).kept hl (fun _ _ => trivial) Kept.nil
  obtain ⟨h₁, h₂, rfl⟩ := List.append_of_mem he
  exact hkept h₁ e h₂ rfl

namespace Faithful

theorem of_mutes {p : Handling α} {Q : α → Prop} (hp : Mutes env p Q) :
    Faithful env origin buffer p := by
  intro h a hl _
  obtain ⟨hsent, hreplenished⟩ :=
    @Mute.counts env origin buffer h (hp.all hl)
  exact iff_of_false hsent hreplenished

/-- What comes after a mute part is what counts. -/
theorem after {p : Handling α} {f : α → Handling β} {Q : α → Prop} (hp : Mutes env p Q)
    (hf : ∀ a, Q a → Faithful env origin buffer (f a)) : Faithful env origin buffer (p >>= f) := by
  intro h b hl hlow
  obtain ⟨h₁, h₂, a, rfl, hfirst, hrest⟩ := Leads.bind_inv hl
  have hQ : Q a := (hp []).result hfirst fun _ _ => trivial
  obtain ⟨hsent, hreplenished⟩ := @Mute.counts env origin buffer h₁ (hp.all hfirst)
  rw [AlertSent.append, Replenished.append, or_iff_right hsent, or_iff_right hreplenished]
  refine hf a hQ h₂ b hrest fun h₃ e h₄ root w s g heq hroot hw hat => ?_
  refine hlow (h₁ ++ h₃) e h₄ root w s g (by rw [heq, List.append_assoc]) hroot hw ?_
  exact (hfirst.bind f).trans hat

/-- A mute end adds nothing. -/
theorem before {p : Handling α} {f : α → Handling β} {Q : β → Prop}
    (hp : Faithful env origin buffer p) (hf : ∀ a, Mutes env (f a) Q) :
    Faithful env origin buffer (p >>= f) := by
  intro h b hl hlow
  obtain ⟨h₁, h₂, a, rfl, hfirst, hrest⟩ := Leads.bind_inv hl
  obtain ⟨hsent, hreplenished⟩ := @Mute.counts env origin buffer h₂ ((hf a).all hrest)
  rw [AlertSent.append, Replenished.append, or_iff_left hsent, or_iff_left hreplenished]
  refine hp h₁ a hfirst fun h₃ e h₄ root w s g heq hroot hw hat => ?_
  refine hlow h₃ e (h₄ ++ h₂) root w s (fun r => g r >>= f) ?_ hroot hw ?_
  · rw [heq, List.append_assoc]
    rfl
  · rw [← bind_assoc']
    exact hat.bind f

end Faithful

/-! ## The restock of a message -/

theorem Origin.reply_leads {text : String} {h : List (Answered Server)} {go : Bool}
    (hl : Leads (origin.reply text) h (.pure go)) : ∃ e, h = [e] ∧ e.1 = origin.send text := by
  cases origin with
  | udp cliAddr =>
    obtain ⟨r, h', rfl, hend⟩ := Leads.call_pure_inv hl
    obtain ⟨rfl, _⟩ := Leads.pure_inv hend
    exact ⟨_, rfl, rfl⟩
  | tcp clientSockfd =>
    obtain ⟨r, h', rfl, hend⟩ := Leads.call_pure_inv hl
    obtain ⟨rfl, _⟩ := Leads.pure_inv hend
    exact ⟨_, rfl, rfl⟩

theorem AlertSent.of_text? {e : Answered Server} (htext : e.1.text? = none) :
    ¬ AlertSent env origin [e] := by
  rintro ⟨e', he', text, hsend, _⟩
  obtain rfl := List.mem_singleton.1 he'
  rw [hsend, origin.send_text?] at htext
  cases htext

theorem Replenished.of_performed {e : Answered Server} (hnone : performed e = none) :
    ¬ Replenished env buffer [e] := by
  rintro ⟨e', he', _, _, _, _, _, _, hperformed⟩
  obtain rfl := List.mem_singleton.1 he'
  cases hnone.symm.trans hperformed

/-- With a low read, `reStock` returns `true`, with its alert, just when it
replenished. -/
theorem reStock_leads {root : Value} {alertOut : String} {h : List (Answered Server)}
    {result : Bool × String} (hroot : env.json.parse buffer = .ok (some root))
    (hl : Leads (reStock env.json root alertOut) h (.pure result))
    (hlow : ∀ w e rest, WatchedStock.ofJson root = .ok (some w) → h = e :: rest → ReadLow e) :
    ¬ AlertSent env origin h ∧
      ((result.1 = true ∧ IsReStockAlert env.json result.2 ∧ Replenished env buffer h) ∨
        (result.1 = false ∧ ¬ Replenished env buffer h)) := by
  obtain ⟨h₀, h', watched, rfl, hfields, hcheck⟩ := Leads.bind_inv hl
  obtain ⟨rfl, hw⟩ := Leads.ofExcept_inv hfields
  cases watched with
  | none =>
    obtain ⟨rfl, hresult⟩ := Leads.pure_inv hcheck
    cases hresult
    exact ⟨fun ⟨_, he, _⟩ => (by cases he), .inr ⟨rfl, fun ⟨_, he, _⟩ => (by cases he)⟩⟩
  | some w =>
  obtain ⟨rows, h', rfl, hstock⟩ := Leads.call_pure_inv hcheck
  have hsent := @AlertSent.of_text? env origin
    ⟨.getWarehouseInventory w.productName w.warehouseId, rows⟩ rfl
  have hreplenished := @Replenished.of_performed env buffer
    ⟨.getWarehouseInventory w.productName w.warehouseId, rows⟩ rfl
  replace hstock : Leads (if readStock rows = -1 then .pure (false, alertOut)
    else if readStock rows ≤ RESTOCK_THRESHOLD then
      ask (.updateWarehouseInventory w.warehouseId w.productName (MAX_CAPACITY - readStock rows))
        >>= fun n => if updateResult n = 1 then .pure (true, w.reStockAlert env.json)
          else .pure (false, alertOut)
    else .pure (true, alertOut)) h' (.pure result) := hstock
  split at hstock
  · obtain ⟨rfl, hresult⟩ := Leads.pure_inv hstock
    cases hresult
    exact ⟨hsent, .inr ⟨rfl, hreplenished⟩⟩
  split at hstock
  · next hle =>
    obtain ⟨n, h'', rfl, hupdate⟩ := Leads.call_pure_inv hstock
    replace hupdate : Leads (if updateResult n = 1 then .pure (true, w.reStockAlert env.json)
      else .pure (false, alertOut)) h'' (.pure result) := hupdate
    let e : Answered Server :=
      ⟨.updateWarehouseInventory w.warehouseId w.productName (MAX_CAPACITY - readStock rows), n⟩
    have hsent' := @AlertSent.of_text? env origin e rfl
    split at hupdate
    · next hone =>
      obtain ⟨rfl, hresult⟩ := Leads.pure_inv hupdate
      cases hresult
      refine ⟨?_, .inl ⟨rfl, ⟨w, rfl⟩, e, by simp [e], root, w, _, hroot, hw, hle, if_pos hone⟩⟩
      show ¬ AlertSent env origin ([_] ++ [e])
      rw [AlertSent.append]
      exact not_or_intro hsent hsent'
    · next hzero =>
      obtain ⟨rfl, hresult⟩ := Leads.pure_inv hupdate
      cases hresult
      refine ⟨?_, .inr ⟨rfl, ?_⟩⟩
      · show ¬ AlertSent env origin ([_] ++ [e])
        rw [AlertSent.append]
        exact not_or_intro hsent hsent'
      · show ¬ Replenished env buffer ([_] ++ [e])
        rw [Replenished.append]
        exact not_or_intro hreplenished (Replenished.of_performed (if_neg hzero))
  · next hhigh =>
    exact absurd (hlow w _ _ hw rfl) hhigh

/-- The restock of a message, with its reply. -/
theorem reStockStage_faithful {root : Value} (hroot : env.json.parse buffer = .ok (some root))
    (s : Loop) : Faithful env origin buffer (reStockStage env origin.reply root s) := by
  intro h a hl hlow
  obtain ⟨h₁, h₂, ⟨restocked, alertOut⟩, rfl, hrestock, hreply⟩ := Leads.bind_inv hl
  obtain ⟨h₃, h₄, go, rfl, hsend, hend⟩ := Leads.bind_inv hreply
  obtain ⟨rfl, _⟩ := Leads.pure_inv hend
  have hfirst : ∀ w e rest, WatchedStock.ofJson root = .ok (some w) → h₁ = e :: rest →
      ReadLow e := by
    rintro w e rest hw rfl
    refine hlow [] e (rest ++ (h₃ ++ [])) root w s Program.pure rfl hroot hw ?_
    rw [bind_pure']
    exact .refl _
  obtain ⟨hsent, hrestocked⟩ := @reStock_leads env origin buffer root _ h₁ _ hroot hrestock hfirst
  rw [List.append_nil, AlertSent.append, Replenished.append, or_iff_right hsent]
  rcases hrestocked with ⟨rfl, halert, hreplenished⟩ | ⟨rfl, hreplenished⟩
  · obtain ⟨e, rfl, he⟩ := Origin.reply_leads hsend
    exact iff_of_true ⟨e, by simp, alertOut, he, halert⟩ (.inl hreplenished)
  · obtain ⟨rfl, _⟩ := Leads.pure_inv hsend
    refine iff_of_false (fun ⟨_, he, _⟩ => (by cases he)) (not_or_intro hreplenished ?_)
    exact fun ⟨_, he, _⟩ => (by cases he)

/-! ## The other parts are mute -/

namespace Mutes

variable {Q : α → Prop} {Q' : β → Prop}

theorem pure {a : α} (h : Q a) : Mutes env (Program.pure a) Q := fun _ => h

theorem bind {p : Handling α} {f : α → Handling β} (hp : Mutes env p Q)
    (hf : ∀ a, Q a → Mutes env (f a) Q') : Mutes env (p >>= f) Q' :=
  fun h => (hp h).bind fun h' a ha => hf a ha h'

theorem ofExcept {x : Except Exn α} (h : ∀ a, x = .ok a → Q a) :
    Mutes env (Program.ofExcept x) Q :=
  fun _ => Meets.ofExcept h

theorem ask {o : Operation} (ho : Mute env o) : Mutes env (ask o) fun _ => True :=
  fun _ => Meets.perform ho fun _ _ => trivial

end Mutes

theorem Mute.of_silent {o : Operation} (htext : o.text? = none) (hupdate : o.update? = none) :
    Mute env o :=
  ⟨fun _ h => (by cases htext.symm.trans h), fun _ h => (by cases hupdate.symm.trans h)⟩

theorem Mute.of_text {o : Operation} {text : String} (htext : o.text? = some text)
    (hno : ¬ IsReStockAlert env.json text) : Mute env o := by
  refine ⟨fun text' h => ?_, fun u hu => ?_⟩
  · cases htext.symm.trans h
    exact hno
  · cases (Asks.update?_of_text htext).symm.trans hu

theorem IsReStockAlert.isAlert {text : String} (h : IsReStockAlert env.json text) :
    IsAlert env.json text := by
  obtain ⟨w, rfl⟩ := h
  exact ⟨_, _, _, _, rfl⟩

theorem not_reStockAlert {text : String} (h : beginsWithBrace text = false) :
    ¬ IsReStockAlert env.json text := fun halert => not_alert h halert.isAlert

theorem IsErrorJson.not_reStockAlert {text : String} (h : IsErrorJson env.json text) :
    ¬ IsReStockAlert env.json text := fun halert => h.not_alert halert.isAlert

theorem reply_mutes {text : String} (h : ¬ IsReStockAlert env.json text) :
    Mutes env (origin.reply text) fun _ => True := by
  cases origin with
  | udp cliAddr => exact (Mutes.ask (.of_text rfl h)).bind fun _ _ => .pure trivial
  | tcp clientSockfd => exact .ask (.of_text rfl h)

theorem replyIf_mutes {condition : Bool} {text : String}
    (h : condition = true → ¬ IsReStockAlert env.json text) :
    Mutes env (replyIf origin.reply condition text) fun _ => True := by
  cases condition with
  | true => exact reply_mutes (h rfl)
  | false => exact .pure trivial

theorem validateStage_mutes {root : Value} {s : Loop} :
    Mutes env (validateStage env origin.reply root s)
      fun r => r.1.isValid = true → checkOrder root = .ok none := by
  refine (Mutes.ofExcept fun r hr => hr).bind ?_
  rintro ⟨valid, message⟩ hv
  obtain ⟨rfl, hlimits⟩ | ⟨rfl, herror⟩ := validateOrderLimits_ok hv
  · exact (replyIf_mutes fun h => (by cases h)).bind fun _ _ => .pure fun _ => hlimits
  · exact (replyIf_mutes fun _ => herror.not_reStockAlert).bind fun _ _ =>
      .pure fun h => (by cases h)

/-- A part that restocks nothing and sends nothing. -/
theorem Mutes.of_transfers {p : Handling α} (hp : p.Only Operation.Transfers) :
    Mutes env p fun _ => True := fun _ =>
  hp.meets (P := fun _ => True) (fun _ _ _ ho => ⟨fun _ h => (by cases ho.1.silent.symm.trans h),
    ho.2⟩) (fun _ _ _ _ _ => trivial) trivial

theorem checkProductStock_mutes {root : Value} {message : String} :
    Mutes env (checkProductStock env.json root message)
      fun r => r.1 = false → IsErrorJson env.json r.2 := by
  have hcheck : ∀ r : StockRequest, Mutes env r.check fun _ => True := fun r =>
    .of_transfers (r.check_reads.mono fun _ => Operation.ReadsStock.transfers)
  have hverdict : Mutes env (stockVerdict root) fun _ => True := by
    refine (Mutes.ofExcept fun _ _ => trivial).bind fun request _ => ?_
    cases request with
    | error rejection => exact .pure trivial
    | ok r => exact hcheck r
  refine hverdict.bind fun verdict _ => ?_
  cases verdict with
  | none => exact .pure fun h => (by cases h)
  | some r => exact .pure fun _ => ⟨_, _, _, _, rfl⟩

theorem stockStage_mutes {root : Value} {s : Loop} :
    Mutes env (stockStage env origin.reply root s) fun r => r.1.isValid = s.isValid := by
  refine checkProductStock_mutes.bind ?_
  rintro ⟨inStock, message⟩ herror
  refine (replyIf_mutes fun h => ?_).bind fun _ _ => .pure rfl
  exact (herror (by simpa using h)).not_reStockAlert

theorem updateStage_mutes {root : Value} {s : Loop}
    (hvalid : s.isValid = true → checkOrder root = .ok none) :
    Mutes env (updateStage origin.reply root s) fun _ => True := by
  unfold updateStage
  split
  · next hboth =>
    refine (Mutes.of_transfers (realTimeUpdate_transfers
      (hvalid ((Bool.and_eq_true _ _).mp hboth).2))).bind fun result _ => ?_
    exact (replyIf_mutes fun _ => not_reStockAlert (by decide)).bind fun _ _ => .pure trivial
  · exact .pure trivial

theorem lowStockStage_mutes (htells : TellsAlertsApart env.json) {root : Value} {s : Loop} :
    Mutes env (lowStockStage env origin.reply root s) fun _ => True := by
  have hlow : ∀ w : WatchedStock, Mutes env (w.lowStock env.json s.alertOut)
      fun r => r.1 = true → ¬ IsReStockAlert env.json r.2 := by
    intro w
    have hread : Mutes env (getWarehouseInventory w.warehouseId w.productName) fun _ => True :=
      (Mutes.ask (.of_silent rfl rfl)).bind fun _ _ => .pure trivial
    refine hread.bind fun stock _ => ?_
    split
    · exact .pure fun h => (by cases h)
    · split
      · exact .pure fun _ ⟨w', halert⟩ => htells w' _ _ halert
      · exact .pure fun h => (by cases h)
  refine Mutes.bind (Q := fun r => r.1 = true → ¬ IsReStockAlert env.json r.2)
    ((Mutes.ofExcept fun _ _ => trivial).bind (Q := fun _ => True) fun watched _ => ?_) ?_
  · cases watched with
    | none => exact .pure fun h => (by cases h)
    | some w => exact hlow w
  · rintro ⟨low, alertOut⟩ halert
    exact (replyIf_mutes halert).bind fun _ _ => .pure trivial

theorem forwardMessageToClient_mutes {message protocol : String} {clientId : Int}
    (h : beginsWithBrace message = false) :
    Mutes env (forwardMessageToClient message clientId protocol) fun _ => True := by
  refine (Mutes.ask (.of_silent rfl rfl)).bind fun target _ => ?_
  cases target with
  | none => exact .pure trivial
  | some info =>
    dsimp only
    split
    · exact (Mutes.ask (.of_text rfl (not_reStockAlert h))).bind fun _ _ => .pure trivial
    · split
      · exact (Mutes.ask (.of_text rfl (not_reStockAlert h))).bind fun _ _ => .pure trivial
      · exact .pure trivial

theorem processMessage_mutes {msg protocol : String} {clientId : Int} :
    Mutes env (processMessage env.json msg protocol clientId) fun _ => True := by
  unfold processMessage
  split
  · exact (Mutes.ask (.of_silent rfl rfl)).bind fun _ _ =>
      (Mutes.ask (.of_silent rfl rfl)).bind fun _ _ =>
        forwardMessageToClient_mutes (listingText_no_brace _ _)
  split
  · exact (Mutes.ask (.of_silent rfl rfl)).bind fun totals _ =>
      forwardMessageToClient_mutes (reportText_no_brace _)
  · refine (Mutes.ofExcept fun f hf => hf).bind fun f hf => ?_
    cases f with
    | none => exact .pure trivial
    | some f =>
      exact forwardMessageToClient_mutes (no_brace_of_head (Forward.ofText_ok hf).head (by decide))

/-! ## A whole iteration -/

/-- A mute stage, and the stages after it. -/
theorem stages_faithful {stage : Loop → Handling (Loop × Bool)}
    {rest : List (Loop → Handling (Loop × Bool))} {s : Loop} {Q : Loop × Bool → Prop}
    (hstage : Mutes env (stage s) Q)
    (hrest : ∀ r, Q r → Faithful env origin buffer (stages rest r.1)) :
    Faithful env origin buffer (stages (stage :: rest) s) := by
  refine Faithful.after hstage ?_
  rintro ⟨s', go⟩ hQ
  cases go with
  | true => exact hrest _ hQ
  | false => exact Faithful.of_mutes (.pure trivial : Mutes env _ fun _ => True)

theorem orderStages_faithful (htells : TellsAlertsApart env.json) {root : Value}
    (hroot : env.json.parse buffer = .ok (some root)) (s : Loop) :
    Faithful env origin buffer (orderStages env origin.reply root s) := by
  refine stages_faithful validateStage_mutes fun r₁ hlimits => ?_
  refine stages_faithful stockStage_mutes fun r₂ hvalid => ?_
  refine stages_faithful (updateStage_mutes fun h => hlimits (hvalid ▸ h)) fun r₃ _ => ?_
  refine stages_faithful (lowStockStage_mutes htells) fun r₄ _ => ?_
  refine Faithful.before (reStockStage_faithful hroot _) (Q := fun _ => True) ?_
  rintro ⟨s', go⟩
  cases go with
  | true => exact .pure trivial
  | false => exact .pure trivial

theorem handleMessage_faithful (htells : TellsAlertsApart env.json) {protocol : String}
    (s : Loop) : Faithful env origin buffer (handleMessage env origin.reply protocol buffer s) := by
  refine Faithful.before (Q := fun _ => True) ?_ fun r => ?_
  · unfold orderBranch
    split
    · refine Faithful.after (Mutes.ask (.of_silent rfl rfl)) fun stored _ => ?_
      refine Faithful.after (Mutes.ofExcept fun _ _ => trivial) (Q := fun _ => True) fun _ _ => ?_
      refine Faithful.after (Mutes.ofExcept fun parsed hparsed => hparsed) fun parsed hparsed => ?_
      cases parsed with
      | none => exact Faithful.of_mutes (.pure trivial : Mutes env _ fun _ => True)
      | some root => exact orderStages_faithful htells hparsed s
    · exact Faithful.of_mutes (.pure trivial : Mutes env _ fun _ => True)
  · dsimp only
    split
    · exact processMessage_mutes.bind fun _ _ => .pure trivial
    · exact .pure trivial

theorem iteration_faithful (htells : TellsAlertsApart env.json) (s : Loop) :
    Faithful env origin buffer (iteration env origin buffer s) := by
  cases origin with
  | udp cliAddr =>
    refine Faithful.after (Mutes.ask (.of_silent rfl rfl)) fun registered _ => ?_
    split
    · exact Faithful.of_mutes ((Mutes.ask (.of_silent rfl rfl)).bind fun _ _ => .pure trivial :
        Mutes env _ fun _ => True)
    · refine Faithful.after (Q := fun _ => True) ?_ fun _ _ => ?_
      · exact @reply_mutes env (.udp cliAddr) _ (not_reStockAlert (by decide))
      · exact @handleMessage_faithful env (.udp cliAddr) buffer htells "UDP" s
  | tcp fd =>
    refine Faithful.after (Q := fun _ => True) ?_ fun written _ => ?_
    · exact @reply_mutes env (.tcp fd) _ (not_reStockAlert (by decide))
    · split
      · exact @handleMessage_faithful env (.tcp fd) buffer htells "TCP" s
      · exact Faithful.of_mutes (.pure trivial : Mutes env _ fun _ => True)

end

/-! ## Along a run -/

/-- When the event answers the stock read of a restock, it does not find more
than the threshold. -/
def LowWhenRead {env : Env} (s : Sys env) (e : Event) : Prop :=
  ∀ who ok (job : Job env) root loop (f : Loop × Bool → Handling Loop), e = .proceed who ok →
    s.activity? who = some (.busy job) → env.json.parse job.buffer = .ok (some root) →
    job.task.rest = (reStockStage env job.origin.reply root loop >>= f) →
      ¬ FindsEnough env root (s.shared, [ok])

/-- Every message handled to completion has sent a re-stock alert just when it
replenished the source of its order. -/
def AlertsMatch {env : Env} (s : Sys env) : Prop :=
  ∀ f ∈ s.finished, AlertSent env f.job.origin f.job.task.history ↔
    Replenished env f.job.buffer f.job.task.history

/-- The restocks of a message have had low reads so far. -/
def RestocksLow (env : Env) (_ : Option Int) : Activity env → Prop
  | .idle _ => True
  | .busy job => LowReads env job.origin job.buffer
      (iteration env job.origin job.buffer job.loop) job.task.history

section

variable {env : Env}

theorem restocksLow_stable : Stable (RestocksLow env) where
  start := trivial
  register _ _ := trivial
  receive _ _ _ _ _ _ := by
    intro h₁ e h₂ _ _ _ _ heq
    exact absurd heq (by simp [Job.begin, Task.begin])
  finish _ _ _ _ _ := trivial

/-- The restock of an order from a warehouse begins with its stock read. -/
theorem reStockStage_call {reply : String → Handling Bool} {root : Value} {w : WatchedStock}
    (hw : WatchedStock.ofJson root = .ok (some w)) (s : Loop)
    (f : Loop × Bool → Handling Loop) : ∃ k, (reStockStage env reply root s >>= f) =
      .call (.getWarehouseInventory w.productName w.warehouseId) k := by
  unfold reStockStage reStock
  rw [hw]
  exact ⟨_, rfl⟩

/-- A step under the condition keeps the reads low. -/
theorem restocksLow_step {s s' : Sys env} {e : Event} (h : s.Every (RestocksLow env))
    (hstep : s.step e = some s') (hC : LowWhenRead s e) : s'.Every (RestocksLow env) := by
  refine h.step restocksLow_stable hstep ?_
  intro who ok k job event task shared he _ hact hjob htask
  obtain ⟨cont, hrest, hreply, hhistory, _, _⟩ := Task.step_some htask
  intro h₁ e' h₂ root w loop f heq hroot hw hat
  replace heq : job.task.history ++ [event] = h₁ ++ e' :: h₂ := hhistory.symm.trans heq
  rcases List.eq_nil_or_concat h₂ with rfl | ⟨h₃, e₃, rfl⟩
  · obtain ⟨rfl, hlast⟩ := List.append_inj' heq rfl
    obtain rfl := List.singleton_inj.1 hlast
    -- The operation that is answered is the read.
    have hhere : job.task.rest = (reStockStage env job.origin.reply root loop >>= f) :=
      job.task.leads.unique hat
    have hlow := hC who ok job root loop f he hact hroot hhere
    obtain ⟨cont', hcall⟩ := @reStockStage_call env job.origin.reply root w hw loop f
    obtain ⟨o, r⟩ := event
    rw [hrest, hcall] at hhere
    injection hhere with ho _
    subst ho
    rw [findsEnough_iff hw, Int.not_lt] at hlow
    replace hreply : r = (answer env ok s.shared
        (.getWarehouseInventory w.productName w.warehouseId)).1 := hreply
    subst hreply
    exact hlow
  · have heq' : job.task.history ++ [event] = (h₁ ++ e' :: h₃) ++ [e₃] := by simpa using heq
    exact hjob h₁ e' h₃ root w loop f (List.append_inj' heq' rfl).1 hroot hw hat

theorem restocksLow_alertsMatch (htells : TellsAlertsApart env.json) {s : Sys env}
    (h : s.Every (RestocksLow env)) : AlertsMatch s := by
  intro f hf
  have hlow : LowReads env f.job.origin f.job.buffer
      (iteration env f.job.origin f.job.buffer f.job.loop) f.job.task.history := by
    rcases h.finished f hf with ⟨_, hjob⟩ | ⟨_, _, _, hjob⟩
    · exact hjob
    · exact hjob
  exact iteration_faithful htells _ _ f.result (Task.leads_pure f.done) hlow

end

/-- **The result and the alert of a restock match its action just when it does
not find the stock above the threshold**; in every run without such a read, a
re-stock alert is sent for an order just when its source was replenished. -/
theorem reStock_reports {env : Env} (htells : TellsAlertsApart env.json) :
    (∀ root alertOut (s s' : Alone) result,
      runAlone env (reStock env.json root alertOut) s = (.ok result, s') →
        (MatchesAction env root s.1.tables s'.1.tables alertOut result ↔
          ¬ FindsEnough env root s)) ∧
      ∀ tables es, Along Sys.step LowWhenRead (Sys.start tables : Sys env) es →
        Throughout Sys.step AlertsMatch (Sys.start tables : Sys env) es := by
  refine ⟨fun root alertOut s s' result hrun => reStock_matchesAction_iff hrun,
    fun tables es hC => ?_⟩
  exact throughout_of_along (I := fun s => s.Every (RestocksLow env))
    (fun _ _ _ hI hstep hc => restocksLow_step hI hstep hc)
    (fun _ hI => restocksLow_alertsMatch htells hI)
    (Sys.start_every restocksLow_stable tables) hC

/-! ## A low stock, and a stock above the threshold -/

/-- The text of an alert begins alike up to its message. -/
theorem generateAlert_text (parse : String → Except Exn (Option Value)) : ∃ opening,
    ∀ name message productId productName, ∃ rest,
      generateAlert (.ofReader parse) name message productId productName =
        opening ++ (message ++ rest) := by
  refine ⟨"\x7b" ++ ("\n\t" ++ ("\"" ++ ("alert" ++ ("\"" ++ (" : " ++ ("\n\t" ++ ("\x7b" ++
    ("\n\t\t" ++ ("\"" ++ ("message" ++ ("\"" ++ (" : " ++ "\"")))))))))))), ?_⟩
  intro name message productId productName
  simp only [generateAlert, JsonCpp.ofReader, Value.styledText, Value.objectText,
    Value.scalarText, Value.quoted, String.append_assoc]
  exact ⟨_, rfl⟩

theorem tellsAlertsApart_ofReader (parse : String → Except Exn (Option Value)) :
    TellsAlertsApart (.ofReader parse) := by
  intro w productId productName hsame
  obtain ⟨opening, htext⟩ := generateAlert_text parse
  obtain ⟨rest₁, h₁⟩ := htext "Low Stock Alert: "
    "Stock levels are <= 20 per cent of max capacity" productId productName
  obtain ⟨rest₂, h₂⟩ := htext "Re-stock Alert: "
    "Stock replenished to full capacity (1000 units)" w.productId w.productName
  rw [WatchedStock.reStockAlert, h₁, h₂] at hsame
  have hlist := congrArg String.toList hsame
  simp only [String.toList_append, List.append_cancel_left_eq] at hlist
  -- The messages differ after their first word.
  have hseventh := congrArg (fun l => l[6]?) hlist
  simp at hseventh

/-- A client's order comes in while every call fails. -/
def deafEvents : List Event :=
  .datagram ⟨⟨127, 0, 0, 1⟩, 5000⟩ externalOrderText :: List.replicate 7 (.proceed .udp false)

/-- The order meets fifty units of water, and its source is replenished; a run
in which no read of a stock succeeds sends no re-stock alert. -/
theorem externalOrder_reports :
    MatchesAction externalEnv externalOrder (waterTables 50) (waterTables 1000) ""
        (true, (⟨1, "Water", 2⟩ : WatchedStock).reStockAlert externalEnv.json) ∧
      Throughout Sys.step AlertsMatch (Sys.start (waterTables 50) : Sys externalEnv)
        deafEvents := by
  have htells : TellsAlertsApart externalEnv.json := tellsAlertsApart_ofReader _
  have hw : WatchedStock.ofJson externalOrder = .ok (some ⟨1, "Water", 2⟩) := by decide
  let run := runAlone externalEnv (reStock externalEnv.json externalOrder "")
    (.start (waterTables 50), [])
  have hresult : run.1 =
      .ok (true, (⟨1, "Water", 2⟩ : WatchedStock).reStockAlert externalEnv.json) := by
    decide +kernel
  have htables : run.2.1.tables = waterTables 1000 := by decide +kernel
  constructor
  · have h := (reStock_reports htells).1 _ _ _ run.2 _ (Prod.ext hresult rfl)
    rw [htables] at h
    refine h.2 ?_
    rw [findsEnough_iff hw]
    decide
  · have hdeaf : ∀ e ∈ deafEvents, ∀ who ok, e = .proceed who ok → ok = false := by
      simp [deafEvents]
    refine (reStock_reports htells).2 _ _ (Along.mono ?_ (Along.of_forall hdeaf))
    rintro s e he who ok job root loop f rfl _ _ _ ⟨_, _, _, _, _, hok, _⟩
    rw [he who ok rfl] at hok
    cases hok

/-- Five hundred units are above the threshold: the call returns `true`, and
nothing is restocked. -/
theorem reStock_unneeded : ¬ ∀ (env : Env) (root : Value) (alertOut : String) (s s' : Alone)
    (result : Bool × String) (w : WatchedStock), WatchedStock.ofJson root = .ok (some w) →
    runAlone env (reStock env.json root alertOut) s = (.ok result, s') →
      MatchesAction env root s.1.tables s'.1.tables alertOut result := by
  intro h
  let run := runAlone externalEnv (reStock externalEnv.json externalOrder "")
    (.start (waterTables 500), [])
  have hresult : run.1 = .ok (true, "") := by decide +kernel
  have htables : run.2.1.tables = waterTables 500 := by decide +kernel
  have hmatches := h externalEnv externalOrder "" (.start (waterTables 500), []) run.2 _
    ⟨1, "Water", 2⟩ (by decide) (Prod.ext hresult rfl)
  rw [htables] at hmatches
  exact absurd (matchesAction_self_iff.1 hmatches) (by decide)

end LogisticService
