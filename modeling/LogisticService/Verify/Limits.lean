import LogisticService.Order.Intake
import LogisticService.Order.Sample
import LogisticService.Verify.Vetting

/-!
# The documented limits

What an order has to be for the limits is stated here without the code: the
orders that keep them (`Documented`), and the rules with their error codes in
the order of priority (`limitRules`). Whenever validation returns, it accepts
exactly the documented orders, and a rejection carries the code of the first
rule the order violates.
-/

namespace LogisticService

theorem WithinLimits.least {clientType : String} {critical : Bool} {quantity : Int}
    (h : WithinLimits clientType critical quantity) : 5 ≤ quantity := by
  rcases h with ⟨_, ⟨_, hleast, _⟩ | ⟨_, hleast⟩⟩ | ⟨_, hleast, _⟩
  · omega
  · omega
  · exact hleast

/-- The order is for a product of the catalogue, and its quantity is as stated. -/
def OrdersQuantity (root : Value) (clientType : String) (critical : Bool) (p : Int → Prop) : Prop :=
  root.stringAt destinationTypePath = .ok clientType ∧
    ∃ productName quantity, root.stringAt productNamePath = .ok productName ∧
      (productName, critical) ∈ criticalProducts ∧
      root.intAt productQuantityPath = .ok quantity ∧ p quantity

/-- The order keeps the documented limits. -/
structure Documented (root : Value) : Prop where
  complete : root.Complete
  actionType : root.stringAt actionTypePath = .ok "request" ∨
    root.stringAt actionTypePath = .ok "req"
  limits : ∃ clientType critical, OrdersQuantity root clientType critical
    (WithinLimits clientType critical)

/-- A value the rules need is empty or not positive. -/
def MissingValue (root : Value) : Prop :=
  root.stringAt destinationTypePath = .ok "" ∨ root.stringAt actionTypePath = .ok "" ∨
    root.stringAt productNamePath = .ok "" ∨
    ∃ quantity, root.intAt productQuantityPath = .ok quantity ∧ quantity ≤ 0

/-- The action is no request. -/
def OtherAction (root : Value) : Prop :=
  ∃ actionType, root.stringAt actionTypePath = .ok actionType ∧
    actionType ≠ "request" ∧ actionType ≠ "req"

/-- The quantity rules of each destination type, and the rule on the type. -/
def quantityRules (root : Value) : List (Int × Prop) :=
  [(1005, OrdersQuantity root "hub" true fun quantity => quantity < 20 ∨ 100 < quantity),
    (1006, OrdersQuantity root "hub" false fun quantity => quantity < 50),
    (1007, OrdersQuantity root "external" true fun quantity => 25 < quantity),
    (1008, ∃ critical, OrdersQuantity root "external" critical fun quantity => quantity < 5),
    (1009, ∃ clientType, root.stringAt destinationTypePath = .ok clientType ∧
      clientType ≠ "hub" ∧ clientType ≠ "external")]

/-- The error codes, each with the violation it stands for, from the first to
the last. -/
def limitRules (root : Value) : List (Int × Prop) :=
  (1001, root.member ["general_info"] = .null) :: (1002, ¬ root.Complete) ::
    (1003, MissingValue root) :: (1004, OtherAction root) :: quantityRules root

/-- The code is that of the first of some rules that is violated. -/
inductive FirstViolated : List (Int × Prop) → Int → Prop
  | here {code : Int} {violation : Prop} {rules : List (Int × Prop)} (h : violation) :
    FirstViolated ((code, violation) :: rules) code
  | later {code : Int} {rule : Int × Prop} {rules : List (Int × Prop)} (h : ¬ rule.2)
    (rest : FirstViolated rules code) : FirstViolated (rule :: rules) code

theorem FirstViolated.violated {rules : List (Int × Prop)} {code : Int}
    (h : FirstViolated rules code) : ∃ rule ∈ rules, rule.2 := by
  induction h with
  | here h => exact ⟨_, List.mem_cons_self, h⟩
  | later _ _ ih =>
    obtain ⟨rule, hrule, h⟩ := ih
    exact ⟨rule, List.mem_cons_of_mem _ hrule, h⟩

/-- What a verdict says of an order: it is documented, or the code is that of
the first rule it violates. -/
def Justified (root : Value) : Option Rejection → Prop
  | none => Documented root
  | some r => FirstViolated (limitRules root) r.code

theorem isCriticalProduct_ok_iff {productName : String} {critical : Bool} :
    isCriticalProduct productName = .ok critical ↔ (productName, critical) ∈ criticalProducts := by
  constructor
  · intro h
    unfold isCriticalProduct at h
    split at h
    · next hlookup =>
      cases h
      obtain ⟨before, after, hlist, _⟩ := List.lookup_eq_some_iff.1 hlookup
      rw [hlist]
      simp
    · cases h
  · intro h
    simp only [criticalProducts, List.mem_cons, List.not_mem_nil, or_false, Prod.mk.injEq] at h
    rcases h with ⟨rfl, rfl⟩ | ⟨rfl, rfl⟩ | ⟨rfl, rfl⟩ | ⟨rfl, rfl⟩ | ⟨rfl, rfl⟩ <;> rfl

/-- The catalogue has each product once. -/
theorem critical_unique {productName : String} {critical critical' : Bool}
    (h : (productName, critical) ∈ criticalProducts)
    (h' : (productName, critical') ∈ criticalProducts) : critical = critical' :=
  Except.ok.inj ((isCriticalProduct_ok_iff.2 h).symm.trans (isCriticalProduct_ok_iff.2 h'))

/-! ## The rules on converted fields -/

/-- The four fields the rules convert, of an order that has them all. -/
structure Converted (root : Value) (clientType actionType productName : String) (quantity : Int) :
    Prop where
  complete : root.Complete
  clientType : root.stringAt destinationTypePath = .ok clientType
  actionType : root.stringAt actionTypePath = .ok actionType
  productName : root.stringAt productNamePath = .ok productName
  quantity : root.intAt productQuantityPath = .ok quantity

section

variable {root : Value} {clientType actionType productName : String} {quantity : Int}

theorem Converted.ordersQuantity_iff (h : Converted root clientType actionType productName quantity)
    {clientType' : String} {critical : Bool} {p : Int → Prop} :
    OrdersQuantity root clientType' critical p ↔
      clientType = clientType' ∧ (productName, critical) ∈ criticalProducts ∧ p quantity := by
  unfold OrdersQuantity
  rw [h.clientType, h.productName, h.quantity]
  constructor
  · rintro ⟨hc, name, q, hname, hin, hq, hp⟩
    cases hc
    cases hname
    cases hq
    exact ⟨rfl, hin, hp⟩
  · rintro ⟨rfl, hin, hp⟩
    exact ⟨rfl, productName, quantity, rfl, hin, rfl, hp⟩

/-- The limits of a destination type hold, or the code is that of the first of
the quantity rules that is violated. -/
theorem Converted.checkLimits (h : Converted root clientType actionType productName quantity)
    {critical : Bool} (hin : (productName, critical) ∈ criticalProducts) :
    match checkLimits clientType critical quantity with
    | none => WithinLimits clientType critical quantity
    | some r => FirstViolated (quantityRules root) r.code := by
  have hother : ∀ {clientType' : String} {critical' : Bool} {p : Int → Prop},
      ¬ (clientType = clientType' ∧ critical = critical' ∧ p quantity) →
        ¬ OrdersQuantity root clientType' critical' p := by
    intro clientType' critical' p hnot horders
    obtain ⟨hc, hin', hp⟩ := h.ordersQuantity_iff.1 horders
    exact hnot ⟨hc, critical_unique hin hin', hp⟩
  have horders : ∀ {critical' : Bool} {p : Int → Prop}, critical = critical' → p quantity →
      OrdersQuantity root clientType critical' p := by
    rintro _ p rfl hp
    exact h.ordersQuantity_iff.2 ⟨rfl, hin, hp⟩
  cases hverdict : LogisticService.checkLimits clientType critical quantity with
  | none => exact checkLimits_within hverdict
  | some r =>
  unfold LogisticService.checkLimits at hverdict
  unfold MIN_CRITICAL_HUB_QUANTITY MAX_CRITICAL_HUB_QUANTITY MIN_NONCRITICAL_HUB_QUANTITY
    MAX_CRITICAL_EXTERNAL_QUANTITY MIN_EXTERNAL_QUANTITY at hverdict
  by_cases hhub : clientType = "hub"
  · subst hhub
    rw [if_pos rfl] at hverdict
    split at hverdict
    · next hrange =>
      cases hverdict
      simp only [Bool.and_eq_true, Bool.or_eq_true, decide_eq_true_eq] at hrange
      exact .here (horders hrange.1 (hrange.2.imp_right id))
    · split at hverdict
      · next hlow =>
        cases hverdict
        simp only [Bool.and_eq_true, Bool.not_eq_true', decide_eq_true_eq] at hlow
        exact .later (hother (by simp [hlow.1])) (.here (horders hlow.1 hlow.2))
      · cases hverdict
  · rw [if_neg hhub] at hverdict
    by_cases hexternal : clientType = "external"
    · subst hexternal
      rw [if_pos rfl] at hverdict
      split at hverdict
      · next hhigh =>
        cases hverdict
        simp only [Bool.and_eq_true, decide_eq_true_eq] at hhigh
        exact .later (hother (by simp)) (.later (hother (by simp))
          (.here (horders hhigh.1 hhigh.2)))
      · next hhigh =>
        simp only [Bool.and_eq_true, decide_eq_true_eq] at hhigh
        split at hverdict
        · next hlow =>
          cases hverdict
          exact .later (hother (by simp)) (.later (hother (by simp))
            (.later (hother fun ⟨_, hcritical, hover⟩ => hhigh ⟨hcritical, hover⟩)
              (.here ⟨critical, horders rfl hlow⟩)))
        · cases hverdict
    · rw [if_neg hexternal] at hverdict
      cases hverdict
      exact .later (hother fun heq => hhub heq.1) (.later (hother fun heq => hhub heq.1)
        (.later (hother fun heq => hexternal heq.1)
          (.later (fun ⟨_, horders'⟩ => hother (fun heq => hexternal heq.1) horders')
            (.here ⟨clientType, h.clientType, hhub, hexternal⟩))))

theorem Converted.checkFields (h : Converted root clientType actionType productName quantity)
    {verdict : Option Rejection}
    (hv : checkFields clientType actionType productName quantity = .ok verdict) :
    Justified root verdict := by
  have hinfo : ¬ root.member ["general_info"] = .null := h.complete.1
  unfold LogisticService.checkFields at hv
  split at hv
  · next hempty =>
    cases hv
    refine .later hinfo (.later (not_not_intro h.complete) (.here ?_))
    simp only [Bool.or_eq_true, decide_eq_true_eq] at hempty
    rcases hempty with ((rfl | rfl) | rfl) | hle
    · exact .inl h.clientType
    · exact .inr (.inl h.actionType)
    · exact .inr (.inr (.inl h.productName))
    · exact .inr (.inr (.inr ⟨quantity, h.quantity, hle⟩))
  · next hvalues =>
    simp only [Bool.or_eq_true, decide_eq_true_eq, not_or] at hvalues
    obtain ⟨⟨⟨hclient, haction⟩, hname⟩, hpositive⟩ := hvalues
    have hpresent : ¬ MissingValue root := by
      unfold MissingValue
      rw [h.clientType, h.actionType, h.productName, h.quantity]
      simp [hclient, haction, hname, hpositive]
    split at hv
    · next hother =>
      cases hv
      refine .later hinfo (.later (not_not_intro h.complete) (.later hpresent (.here ?_)))
      exact ⟨actionType, h.actionType, by simpa using hother⟩
    · next hrequest =>
      have hrequest : actionType = "request" ∨ actionType = "req" := by
        by_contra hno
        simp only [not_or] at hno
        simp [hno.1, hno.2] at hrequest
      have hknown : ¬ OtherAction root := by
        rintro ⟨actionType', hread, hno₁, hno₂⟩
        cases h.actionType.symm.trans hread
        exact hrequest.elim hno₁ hno₂
      obtain ⟨critical, hcritical, hv⟩ := Except.seq_ok hv
      have hin := isCriticalProduct_ok_iff.1 hcritical
      have hlimits := h.checkLimits hin
      obtain rfl := Except.ok.inj hv
      generalize LogisticService.checkLimits clientType critical quantity = verdict at hlimits ⊢
      cases verdict with
      | none =>
        refine ⟨h.complete, ?_, clientType, critical, h.ordersQuantity_iff.2 ⟨rfl, hin, hlimits⟩⟩
        rw [h.actionType]
        exact hrequest.imp (congrArg _) (congrArg _)
      | some r =>
        exact .later hinfo (.later (not_not_intro h.complete) (.later hpresent
          (.later hknown hlimits)))

end

/-! ## The whole check -/

/-- A documented order violates no rule. -/
theorem Documented.no_violation {root : Value} (h : Documented root) :
    ∀ rule ∈ limitRules root, ¬ rule.2 := by
  obtain ⟨hcomplete, haction, clientType, critical, htype, productName, quantity, hname, hin,
    hquantity, hlimits⟩ := h
  have hsame : ∀ {clientType' : String} {critical' : Bool} {p : Int → Prop},
      OrdersQuantity root clientType' critical' p →
        clientType' = clientType ∧ critical' = critical ∧ p quantity := by
    rintro clientType' critical' p ⟨htype', name, q, hname', hin', hq, hp⟩
    cases htype.symm.trans htype'
    cases hname.symm.trans hname'
    cases hquantity.symm.trans hq
    exact ⟨rfl, critical_unique hin' hin, hp⟩
  intro rule hrule
  simp only [limitRules, quantityRules, List.mem_cons, List.not_mem_nil, or_false] at hrule
  rcases hrule with rfl | rfl | rfl | rfl | rfl | rfl | rfl | rfl | rfl
  · exact hcomplete.1
  · exact not_not_intro hcomplete
  · rintro (hempty | hempty | hempty | ⟨q, hq, hle⟩)
    · cases htype.symm.trans hempty
      simp [WithinLimits] at hlimits
    · rw [hempty] at haction
      simp at haction
    · cases hname.symm.trans hempty
      simp [criticalProducts] at hin
    · cases hquantity.symm.trans hq
      have hleast := hlimits.least
      omega
  · rintro ⟨actionType, hread, hno₁, hno₂⟩
    rw [hread] at haction
    exact haction.elim (fun heq => hno₁ (Except.ok.inj heq)) fun heq => hno₂ (Except.ok.inj heq)
  · intro horders
    obtain ⟨rfl, rfl, hrange⟩ := hsame horders
    have hrange' : 20 ≤ quantity ∧ quantity ≤ 100 := by simpa [WithinLimits] using hlimits
    omega
  · intro horders
    obtain ⟨rfl, rfl, hlow⟩ := hsame horders
    have hleast : 50 ≤ quantity := by simpa [WithinLimits] using hlimits
    omega
  · intro horders
    obtain ⟨rfl, rfl, hhigh⟩ := hsame horders
    have hrange : 5 ≤ quantity ∧ quantity ≤ 25 := by simpa [WithinLimits] using hlimits
    omega
  · rintro ⟨critical', horders⟩
    obtain ⟨_, _, hlow⟩ := hsame horders
    have hleast := hlimits.least
    omega
  · rintro ⟨clientType', htype', hhub, hexternal⟩
    cases htype.symm.trans htype'
    exact hlimits.elim (fun hlimit => hhub hlimit.1) fun hlimit => hexternal hlimit.1

theorem checkOrder_justified {root : Value} {verdict : Option Rejection}
    (h : checkOrder root = .ok verdict) : Justified root verdict := by
  obtain ⟨info, hinfo, h⟩ := Except.seq_ok h
  obtain ⟨_, rfl⟩ := Value.get_ok_iff.1 hinfo
  split at h
  · next hnull =>
    cases h
    exact .here (Value.isNull_iff.1 hnull)
  next hpresent =>
  have hpresent : ¬ root.member ["general_info"] = .null := mt Value.isNull_iff.2 hpresent
  obtain ⟨destination, hdestination, h⟩ := Except.seq_ok h
  obtain ⟨action, haction, h⟩ := Except.seq_ok h
  obtain ⟨product, hproduct, h⟩ := Except.seq_ok h
  obtain ⟨_, rfl⟩ := Value.get_ok_iff.1 hdestination
  obtain ⟨_, rfl⟩ := Value.get_ok_iff.1 haction
  obtain ⟨_, rfl⟩ := Value.get_ok_iff.1 hproduct
  split at h
  · next hnull =>
    cases h
    simp only [Bool.or_eq_true, Value.isNull_iff] at hnull
    refine .later hpresent (.here fun ⟨_, hd, ha, hp⟩ => ?_)
    exact hnull.elim (fun hnull => hnull.elim hd ha) hp
  next hall =>
  simp only [Bool.or_eq_true, Value.isNull_iff, not_or] at hall
  obtain ⟨v₁, h₁, h⟩ := Except.seq_ok h
  obtain ⟨clientType, h₁', h⟩ := Except.seq_ok h
  obtain ⟨v₂, h₂, h⟩ := Except.seq_ok h
  obtain ⟨actionType, h₂', h⟩ := Except.seq_ok h
  obtain ⟨v₃, h₃, h⟩ := Except.seq_ok h
  obtain ⟨productName, h₃', h⟩ := Except.seq_ok h
  obtain ⟨v₄, h₄, h⟩ := Except.seq_ok h
  obtain ⟨quantity, h₄', h⟩ := Except.seq_ok h
  have hfields : Converted root clientType actionType productName quantity := by
    refine ⟨⟨hpresent, hall.1.1, hall.1.2, hall.2⟩, ?_, ?_, ?_, ?_⟩
    · rw [destinationTypePath, Value.stringAt_cons hinfo, Value.stringAt_cons hdestination,
        Value.stringAt_cons h₁]
      exact h₁'
    · rw [actionTypePath, Value.stringAt_cons hinfo, Value.stringAt_cons haction,
        Value.stringAt_cons h₂]
      exact h₂'
    · rw [productNamePath, Value.stringAt_cons hinfo, Value.stringAt_cons haction,
        Value.stringAt_cons hproduct, Value.stringAt_cons h₃]
      exact h₃'
    · rw [productQuantityPath, Value.intAt_cons hinfo, Value.intAt_cons haction,
        Value.intAt_cons hproduct, Value.intAt_cons h₄]
      exact h₄'
  exact hfields.checkFields h

/-- Validation accepts exactly the documented orders, and names the first rule
that a rejected order violates. -/
theorem validateOrderLimits_documented (json : JsonCpp) (root : Value) (error message : String)
    (valid : Bool) (h : validateOrderLimits json root error = .ok (valid, message)) :
    (valid = true ↔ Documented root) ∧
      (valid = false → ∃ code text description,
        message = generateError json code text description .error ∧
          FirstViolated (limitRules root) code) := by
  obtain ⟨verdict, hverdict, h⟩ := Except.seq_ok h
  have hverdict := checkOrder_justified hverdict
  cases verdict with
  | none =>
    cases h
    exact ⟨⟨fun _ => hverdict, fun _ => rfl⟩, fun hno => (by cases hno)⟩
  | some r =>
    cases h
    refine ⟨⟨fun hyes => (by cases hyes), fun hdocumented => ?_⟩,
      fun _ => ⟨r.code, r.message, r.description, rfl, hverdict⟩⟩
    obtain ⟨rule, hrule, hviolated⟩ := hverdict.violated
    exact absurd hviolated (hdocumented.no_violation rule hrule)

/-- An order for 25 units of water keeps the limits of an external client. -/
theorem externalOrder_documented : Documented externalOrder :=
  (validateOrderLimits_documented externalEnv.json externalOrder "" "" true (by decide)).1.1 rfl

end LogisticService
