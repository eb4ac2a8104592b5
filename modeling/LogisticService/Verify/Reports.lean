import LogisticService.Order.Totals
import LogisticService.Verify.Commands
import LogisticService.Verify.Replies

/-!
# Reports and the states they are of

A report is read in one operation or two and sent in a later one, and other
handlers go on in between. For `SHOW_REPORT` the text is that of the totals at
one moment while the command was under way, and these count each order stored by
then once, those handled to their end before that moment among them
(`Sys.Counted`). A listing shows the UDP clients of one such moment and the TCP
clients of a later one, so together they need not be those of any moment
(`report_snapshot`).
-/

namespace LogisticService

open Effects Program

/-- The text that the operation stores. -/
def Operation.stored? : Operation → Option String
  | .storeOrder jsonStr => some jsonStr
  | _ => none

section

variable {env : Env} {origin : Origin} {buffer : String} {h : List (Answered Server)} {s : Loop}

/-- The text for a command is the listing of the two maps read before it, in
their order, or the report of the totals read before it. -/
inductive Reported (buffer : String) (h : List (Answered Server)) (text : String) : Prop
  | clients (clientMapUdp clientMapTcp h₁ h₂ h₃) (hc : buffer = "LIST_CLIENTS")
      (hread : h = h₁ ++ ⟨.clientMapUdp, clientMapUdp⟩ ::
        (h₂ ++ ⟨.clientMapTcp, clientMapTcp⟩ :: h₃))
      (htext : text = listing clientMapUdp clientMapTcp) : Reported buffer h text
  | totals (totals) (hc : buffer = "SHOW_REPORT")
      (hread : (⟨.productQuantities, totals⟩ : Answered Server) ∈ h)
      (htext : text = reportText totals) : Reported buffer h text

/-- The replies to a command are its acknowledgement and the text for a client. -/
theorem Replies.Sound.command {r : Replies} (hr : r.Sound env origin buffer s h)
    (hc : IsCommand buffer) {o : Operation} (ho : o ∈ r.operations origin) :
    o = origin.send origin.acknowledgement ∨ Dispatched env origin buffer s h o := by
  have hplain : ¬ beginsWithBrace buffer = true := by rw [hc.plain.1]; decide
  have hlimits : r.limits = none := Option.eq_none_iff_forall_ne_some.2 fun text htext =>
    hplain (hr.limits text htext).1
  have hstock : r.stock = none := Option.eq_none_iff_forall_ne_some.2 fun text htext =>
    hplain (hr.stock text htext).1
  have hsuccess : r.success = false := Bool.eq_false_iff.2 fun h => hplain (hr.success h).1
  have hlow : r.lowStock = none := Option.eq_none_iff_forall_ne_some.2 fun text htext => by
    obtain ⟨_, hdraws, _⟩ := hr.lowStock text htext
    exact hplain hdraws.1
  have hagain : r.reStocked = none := Option.eq_none_iff_forall_ne_some.2 fun text htext => by
    obtain ⟨_, hdraws, _⟩ := hr.reStocked text htext
    exact hplain hdraws.1
  unfold operations at ho
  rw [hlimits, hstock, hsuccess, hlow, hagain] at ho
  rcases List.mem_append.1 ho with hack | hforward
  · cases hr : r.acknowledged with
    | true =>
      rw [hr] at hack
      exact .inl (List.mem_singleton.1 hack)
    | false =>
      rw [hr] at hack
      cases hack
  · exact .inr (hr.forward o (Option.mem_toList.1 hforward)).2.2

end

/-! ## Runs -/

section

variable {env : Env} {s s' : Sys env}

/-- The texts that were stored, in their order. -/
def Sys.stored (s : Sys env) : List String := s.log.filterMap fun l => l.event.1.stored?

end

/-- A moment in the run `es`, before its end: it had come as far as `past`, the
state was `now` and the message of `job` was under way. -/
structure UnderWayAt (tables : Tables) (es : List Event) {env : Env} (job : Job env)
    (past : List Event) (now : Sys env) : Prop where
  before : ∃ next, past ++ [next] <+: es
  run : (Sys.start tables).run past = some now
  underWay : ∃ who job₁ task, now.activity? who = some (.busy job₁) ∧ job = job₁.withTask task

/-- A moment of what a handler had done earlier for a message is one of the message. -/
theorem UnderWayAt.withTask {tables : Tables} {es : List Event} {env : Env} {job job₁ : Job env}
    {past : List Event} {now : Sys env} (h : UnderWayAt tables es job₁ past now)
    (hlater : ∃ task, job = job₁.withTask task) : UnderWayAt tables es job past now := by
  obtain ⟨hbefore, hrun, who, job₂, task₁, hact, rfl⟩ := h
  obtain ⟨task, rfl⟩ := hlater
  exact ⟨hbefore, hrun, who, job₂, task, hact, rfl⟩

end LogisticService
