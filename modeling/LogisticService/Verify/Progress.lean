import LogisticService.Order.Sample
import LogisticService.Server.Mutex
import Mathlib.Algebra.GroupWithZero.Nat

/-!
# Every handler gets on with its work

A message takes at most fourteen operations over UDP and thirteen over TCP
(`Origin.budget`), whatever they return. A handler waits for the answer to its
operation, or for `ordersMutex`; whoever holds that waits for an answer only, so
the handlers never wait for each other in a circle. From every reachable state
the handlers, left to themselves in any order, have done their work after
boundedly many operations, and then each is ready for its next message, unless
an exception has ended the server (`handlers_drain`).
-/

namespace LogisticService

open Effects Program

/-- The most operations that a message takes. -/
def Origin.budget : Origin → Nat
  | .udp _ => 14
  | .tcp _ => 13

/-! ## How long the parts of a handler are -/

section

variable {env : Env} {origin : Origin} {buffer : String} {root : Value}
  {h : List (Answered Server)} {s : Loop}

theorem reply_short (origin : Origin) (text : String) : (origin.reply text).Short 1 := by
  cases origin with
  | udp cliAddr => exact fun _ => Short.pure _
  | tcp clientSockfd => exact fun _ => Short.pure _

theorem replyIf_short (origin : Origin) (condition : Bool) (text : String) :
    (replyIf origin.reply condition text).Short condition.toNat := by
  cases condition with
  | false => exact Short.pure _
  | true => exact reply_short origin text

theorem StockRequest.check_short (r : StockRequest) : r.check.Short 1 := by
  unfold StockRequest.check
  split
  · exact fun _ => Short.pure _
  · split
    · exact fun _ => Short.pure _
    · exact Short.pure _

theorem checkProductStock_short (json : JsonCpp) (root : Value) (errorMessage : String) :
    (checkProductStock json root errorMessage).Short 1 := by
  have hverdict : (stockVerdict root).Short 1 := by
    refine Short.ofExcept_bind fun request => ?_
    cases request with
    | error rejection => exact Short.pure _
    | ok r => exact r.check_short
  refine hverdict.bind (m := 0) fun verdict => ?_
  cases verdict with
  | none => exact Short.pure _
  | some r => exact Short.pure _

theorem Update.call_short (u : Update) : u.call.Short 1 := by
  unfold Update.call
  cases u.table with
  | hubs => exact fun _ => Short.pure _
  | warehouses => exact fun _ => Short.pure _

theorem realTimeUpdate_short (root : Value) : (realTimeUpdate root).Short 2 := by
  refine Short.ofExcept_bind fun t => ?_
  cases hd : t.debit with
  | none =>
    rw [Transfer.perform_of_no_debit hd]
    exact Short.pure _
  | some d =>
    rw [Transfer.perform_of_debit hd]
    refine d.call_short.bind (m := 1) fun result => ?_
    split
    · cases t.credit with
      | none => exact Short.pure _
      | some k => exact k.call_short
    · exact Short.pure _

theorem checkLowStockAlert_short (json : JsonCpp) (root : Value) (alertOut : String) :
    (checkLowStockAlert json root alertOut).Short 1 := by
  refine Short.ofExcept_bind fun w => ?_
  cases w with
  | none => exact Short.pure _
  | some w =>
    intro rows
    show (if readStock rows = -1 then _ else _ : Handling _).Short 0
    split
    · exact Short.pure _
    · split <;> exact Short.pure _

theorem reStock_short (json : JsonCpp) (root : Value) (alertOut : String) :
    (reStock json root alertOut).Short 2 := by
  refine Short.ofExcept_bind fun w => ?_
  cases w with
  | none => exact Short.pure _
  | some w =>
    intro rows
    show (if readStock rows = -1 then _ else _ : Handling _).Short 1
    split
    · exact Short.pure _
    · split
      · intro n
        show (if updateResult n = 1 then _ else _ : Handling _).Short 0
        split <;> exact Short.pure _
      · exact Short.pure _

theorem forwardMessageToClient_short (message protocol : String) (clientId : Int) :
    (forwardMessageToClient message clientId protocol).Short 2 := by
  intro target
  cases target with
  | none => exact Short.pure _
  | some info =>
    dsimp only
    split
    · exact fun _ => Short.pure _
    · split
      · exact fun _ => Short.pure _
      · exact Short.pure _

/-- A report reads before it is sent; an order is only forwarded. -/
theorem processMessage_short (json : JsonCpp) (buffer protocol : String) (clientId : Int) :
    (processMessage json buffer protocol clientId).Short
      (if beginsWithBrace buffer then 2 else 4) := by
  unfold processMessage
  split
  · next hbrace =>
    rw [if_neg (not_command_of_brace hbrace).1, if_neg (not_command_of_brace hbrace).2]
    refine Short.ofExcept_bind fun f => ?_
    cases f with
    | none => exact Short.pure _
    | some f => exact forwardMessageToClient_short _ _ _
  · split
    · exact fun _ _ => forwardMessageToClient_short _ _ _
    · split
      · exact fun totals => (forwardMessageToClient_short _ _ _).mono (by decide)
      · refine Short.ofExcept_bind fun f => ?_
        cases f with
        | none => exact Short.pure _
        | some f => exact (forwardMessageToClient_short _ _ _).mono (by decide)

/-- The program asks for nothing once the history has so many operations. -/
abbrev StopsBy (budget : Nat) {α : Type} (p : Handling α)
    (Q : List (Answered Server) → α → Prop) (h : List (Answered Server)) : Prop :=
  p.Meets (fun _ _ => True) (fun h _ => h.length < budget) Q h

/-- A check and the reply to it. -/
theorem stage_stops {α : Type} {budget n : Nat} {check : Handling α} {condition : α → Bool}
    {text : α → String} {after : α → Loop} {P : List (Answered Server) → Loop → Prop}
    (hcheck : check.Short n) (hbudget : h.length + n + 1 ≤ budget)
    (hP : ∀ h' a, h'.length ≤ h.length + n + (condition a).toNat → P h' (after a)) :
    StopsBy budget (check >>= fun a => replyIf origin.reply (condition a) (text a) >>= fun go =>
      (Program.pure (after a, go) : Handling (Loop × Bool))) (fun h' r => P h' r.1) h := by
  refine Meets.bind (hcheck.meets (by omega)) fun h₁ a hh₁ => ?_
  have hone : (condition a).toNat ≤ 1 := Bool.toNat_le _
  refine Meets.bind ((replyIf_short origin (condition a) (text a)).meets (by omega))
    fun h₂ go hh₂ => ?_
  exact hP h₂ a (by omega)

/-- Stages one after another: what holds after a stage holds after the last
one, and if one of them stops. -/
theorem stages_stops {budget : Nat} {P Q : List (Answered Server) → Loop → Prop}
    {stage : Loop → Handling (Loop × Bool)} {rest : List (Loop → Handling (Loop × Bool))}
    (hstage : StopsBy budget (stage s) (fun h r => P h r.1) h) (hP : ∀ h s, P h s → Q h s)
    (hrest : ∀ h s, P h s → StopsBy budget (stages rest s) (fun h r => Q h r.1) h) :
    StopsBy budget (stages (stage :: rest) s) (fun h r => Q h r.1) h :=
  stages_meets hstage hrest hP

/-- After `b` operations and the checks: an order that failed one had its error
sent, and asks for no transfer. -/
def Checks (b : Nat) (h : List (Answered Server)) (s : Loop) : Prop :=
  h.length ≤ b + if s.isValid && s.productStock then 1 else 3

theorem validateStage_stops {b budget : Nat} (hh : h.length = b) (hb : b + 9 ≤ budget) :
    StopsBy budget (validateStage env origin.reply root s)
      (fun h' r => h'.length ≤ b + (!r.1.isValid).toNat) h := by
  refine stage_stops (P := fun h' s' => h'.length ≤ b + (!s'.isValid).toNat) (n := 0)
    (Short.ofExcept _) (by omega) fun h' r hh' => ?_
  show h'.length ≤ b + (!r.1).toNat
  omega

theorem stockStage_stops {b budget : Nat} (hh : h.length ≤ b + (!s.isValid).toNat)
    (hb : b + 9 ≤ budget) :
    StopsBy budget (stockStage env origin.reply root s) (fun h' r => Checks b h' r.1) h := by
  have hone : (!s.isValid).toNat ≤ 1 := Bool.toNat_le _
  refine stage_stops (P := Checks b) (checkProductStock_short _ _ _) (by omega) fun h' r hh' => ?_
  show h'.length ≤ b + if s.isValid && r.1 then 1 else 3
  revert hh' hh
  cases s.isValid <;> cases r.1 <;> simp <;> omega

theorem updateStage_stops {b budget : Nat} (hh : Checks b h s) (hb : b + 9 ≤ budget) :
    StopsBy budget (updateStage origin.reply root s) (fun h' _ => h'.length ≤ b + 4) h := by
  unfold Checks at hh
  unfold updateStage
  split
  · next hboth =>
    rw [Bool.and_comm, if_pos hboth] at hh
    refine stage_stops (P := fun h' _ => h'.length ≤ b + 4) (realTimeUpdate_short root) (by omega)
      fun h' r hh' => ?_
    have hone := Bool.toNat_le (decide (r > 0))
    omega
  · show h.length ≤ b + 4
    split at hh <;> omega

theorem alertStage_stops {b n budget : Nat} {check : Handling (Bool × String)}
    {after : Bool × String → Loop} (hcheck : check.Short n) (hh : h.length ≤ b)
    (hb : b + n + 1 ≤ budget) :
    StopsBy budget (check >>= fun a => replyIf origin.reply a.1 a.2 >>= fun go =>
      (Program.pure (after a, go) : Handling (Loop × Bool)))
      (fun h' _ => h'.length ≤ b + n + 1) h := by
  refine stage_stops (P := fun h' _ => h'.length ≤ b + n + 1) hcheck (by omega) fun h' a hh' => ?_
  have hone := Bool.toNat_le a.1
  omega

/-- The stages of an order ask for nine operations at most. -/
theorem orderStages_stops {b budget : Nat} (hh : h.length = b) (hb : b + 9 ≤ budget) :
    StopsBy budget (orderStages env origin.reply root s) (fun h' _ => h'.length ≤ b + 9) h := by
  unfold orderStages
  refine stages_stops (P := fun h s => h.length ≤ b + (!s.isValid).toNat)
    (Q := fun h _ => h.length ≤ b + 9) (validateStage_stops hh hb) (fun h s hh => ?_)
    fun h₁ s₁ hh₁ => ?_
  · have hone : (!s.isValid).toNat ≤ 1 := Bool.toNat_le _
    omega
  refine stages_stops (Q := fun h _ => h.length ≤ b + 9) (stockStage_stops hh₁ hb)
    (fun h s hh => ?_) fun h₂ s₂ hh₂ => ?_
  · unfold Checks at hh
    split at hh <;> omega
  refine stages_stops (P := fun h _ => h.length ≤ b + 4) (Q := fun h _ => h.length ≤ b + 9)
    (updateStage_stops hh₂ hb)
    (fun h s hh => by omega) fun h₃ s₃ hh₃ => ?_
  refine stages_stops (P := fun h _ => h.length ≤ b + 6) (Q := fun h _ => h.length ≤ b + 9)
    (alertStage_stops (b := b + 4) (n := 1) (checkLowStockAlert_short _ _ _) hh₃ (by omega))
    (fun h s hh => by omega) fun h₄ s₄ hh₄ => ?_
  refine stages_stops (P := fun h _ => h.length ≤ b + 9) (Q := fun h _ => h.length ≤ b + 9)
    (alertStage_stops (b := b + 6) (n := 2) (reStock_short _ _ _) hh₄ (by omega))
    (fun h s hh => hh) fun h₅ s₅ hh₅ => ?_
  exact hh₅

theorem handleMessage_stops (origin : Origin) {protocol : String} {b budget : Nat}
    (hh : h.length = b) (hb : b + 12 ≤ budget) :
    StopsBy budget (handleMessage env origin.reply protocol buffer s)
      (fun h' _ => h'.length ≤ b + 12) h := by
  unfold handleMessage
  refine Meets.bind (Q := fun h' _ => h'.length ≤ b + if beginsWithBrace buffer then 10 else 0) ?_
    fun h₁ r hh₁ => ?_
  · unfold orderBranch
    split
    · unfold handleOrder
      refine Meets.bind (Q := fun h' _ => h'.length = b + 1)
        ⟨by omega, fun stored _ => by rw [← hh]; exact List.length_append⟩ fun h₁ stored hh₁ => ?_
      refine Meets.bind (Meets.ofExcept (Q := fun h' _ => h'.length = b + 1) fun _ _ => hh₁)
        fun h₂ _ hh₂ => ?_
      refine Meets.bind (Meets.ofExcept (Q := fun h' _ => h'.length = b + 1) fun _ _ => hh₂)
        fun h₃ v hh₃ => ?_
      cases v with
      | none => exact hh₃.le.trans (by omega)
      | some root => exact orderStages_stops hh₃ (by omega)
    · exact hh.le
  · obtain ⟨s', go⟩ := r
    dsimp only
    split
    · refine Meets.bind ((processMessage_short env.json buffer protocol s'.clientId).meets ?_)
        fun h₂ _ hh₂ => ?_
      · split at hh₁ <;> split <;> omega
      · show h₂.length ≤ b + 12
        split at hh₁ <;> split at hh₂ <;> omega
    · show h₁.length ≤ b + 12
      split at hh₁ <;> omega

/-- **A message takes no more operations than its budget**, whatever they return. -/
theorem iteration_stops (env : Env) (origin : Origin) (buffer : String) (s : Loop) :
    StopsBy origin.budget (iteration env origin buffer s)
      (fun h' _ => h'.length ≤ origin.budget) [] := by
  cases origin with
  | udp cliAddr =>
    show StopsBy 14 (handleUdpClients env cliAddr buffer s) _ []
    unfold handleUdpClients
    refine ⟨(by decide : 0 < 14), fun registered _ => ?_⟩
    show StopsBy 14 (if !registered && atoi buffer ≠ 0 then _ else _) _ _
    split
    · exact ⟨(by decide : 1 < 14), fun clientId _ => (by decide : 2 ≤ 14)⟩
    · exact ⟨(by decide : 1 < 14), fun sent _ => handleMessage_stops (.udp cliAddr) rfl (by decide)⟩
  | tcp fd =>
    show StopsBy 13 (handleTcpClient env fd buffer s) _ []
    unfold handleTcpClient
    refine ⟨(by decide : 0 < 13), fun written _ => ?_⟩
    cases written with
    | true => exact handleMessage_stops (.tcp fd) rfl (by decide)
    | false => exact (by decide : 1 ≤ 13)

end

/-! ## Runs -/

section

variable {env : Env} {s s' : Sys env}

/-- How many operations the budget of a job leaves it. -/
def Job.left (job : Job env) : Nat := job.origin.budget - job.task.history.length

theorem Job.Waits.within {job : Job env} (h : job.Waits) :
    job.task.history.length < job.origin.budget := by
  obtain ⟨o, k, hrest⟩ := h
  exact (iteration_stops env job.origin job.buffer job.loop).issued (Task.leads_call hrest)
    fun _ _ => trivial

namespace Sys

/-- The handler can go on with its message, whatever the answer is. -/
def GoesOn (s : Sys env) (who : Who) : Prop := ∀ ok, ∃ s', s.step (.proceed who ok) = some s'

end Sys

end

end LogisticService
