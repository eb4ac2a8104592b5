import LogisticService.Effects.Runs
import LogisticService.Server.Grants

/-!
# How far the id counters run

An attempt to register takes an id from its counter before the id is held
against the limit, so the counter goes on with every attempt that is turned
away. The ids returned stay within the limit, and the increments within `int`,
just while fewer ids have been taken than an `int` can count.
-/

namespace LogisticService

open Effects

/-- The event takes an id from the counter of a protocol: an attempt under a
PID that its map does not have. -/
def Registry.takesId (reg : Registry) (p : Protocol) : RegistryEvent → Bool
  | .register _ pid protocol _ _ => protocol = p.name && !(reg.clientMap p).contains pid
  | _ => false

namespace Granting

/-- How many of the events take an id. -/
def idsTaken (p : Protocol) : Granting → List RegistryEvent → Nat
  | _, [] => 0
  | b, e :: es => (if b.reg.takesId p e then 1 else 0) + idsTaken p (b.step e) es

/-- A condition that holds at every event of a run. -/
abbrev Always (C : Granting → RegistryEvent → Prop) (b : Granting) (es : List RegistryEvent) :
    Prop :=
  Along (fun b e => some (b.step e)) C b es

/-- An increment leaves the counter within the bound. -/
def Within (bound : Int) (b : Granting) (e : RegistryEvent) : Prop :=
  ∀ p, b.reg.takesId p e = true → b.reg.nextClientId p + 1 ≤ bound

/-- A counter past the id limit stays as it is. -/
def Stops (b : Granting) (e : RegistryEvent) : Prop :=
  ∀ p, b.reg.nextClientId p > MAX_CLIENTS_ID →
    (b.step e).reg.nextClientId p = b.reg.nextClientId p

/-- An attempt returns -1 or an id within the limit. -/
def ReturnsId (b : Granting) : RegistryEvent → Prop
  | .register now pid protocol addr socketFd =>
    let clientId := (b.reg.registerClient now pid protocol addr socketFd).1
    clientId = -1 ∨ 1 ≤ clientId ∧ clientId ≤ MAX_CLIENTS_ID
  | _ => True

/-- What is asked of the counters at every event. -/
structure CountsSafely (b : Granting) (e : RegistryEvent) : Prop where
  inRange : b.Within INT_MAX e
  stops : b.Stops e
  returns : b.ReturnsId e

theorem idsTaken_cons (p : Protocol) (b : Granting) (e : RegistryEvent)
    (es : List RegistryEvent) : (idsTaken p b (e :: es) : Int) =
      (if b.reg.takesId p e then 1 else 0) + idsTaken p (b.step e) es := by
  rw [idsTaken]
  split <;> simp

/-! ## One event -/

theorem nextClientId_step (b : Granting) (e : RegistryEvent) (p : Protocol) :
    (b.step e).reg.nextClientId p =
      if b.reg.takesId p e then toInt32 (b.reg.nextClientId p + 1) else b.reg.nextClientId p := by
  cases e with
  | register now pid protocol addr socketFd =>
    show (b.reg.registerClient now pid protocol addr socketFd).2.nextClientId p = _
    by_cases hp : protocol = p.name
    · subst hp
      rw [Registry.registerClient_eq]
      by_cases hin : (b.reg.clientMap p).contains pid = true
      · rw [if_pos hin, if_neg (by simp [Registry.takesId, hin])]
      · have htakes : b.reg.takesId p (.register now pid p.name addr socketFd) = true := by
          simp [Registry.takesId, hin]
        rw [if_neg hin, if_pos htakes]
        split
        · rw [Registry.advance_nextClientId, if_pos rfl]
        · rw [Registry.store_nextClientId, Registry.advance_nextClientId, if_pos rfl]
    · rw [if_neg (by simp [Registry.takesId, hp])]
      by_cases hknown : ∃ q : Protocol, protocol = q.name
      · obtain ⟨q, rfl⟩ := hknown
        have hne : p ≠ q := fun heq => hp (by rw [heq])
        exact ((b.reg.registerClient_cases now pid q addr socketFd).1 p hne).2
      · have hunknown : ∀ q : Protocol, protocol ≠ q.name := fun q hq => hknown ⟨q, hq⟩
        rw [Registry.registerClient_unknown _ now pid addr socketFd hunknown]
  | eraseTcp pid => cases p <;> rfl
  | cleanup now timeout => cases p <;> rfl

/-- While the counters are positive, what is returned is an id or -1. -/
theorem returnsId_of_pos {b : Granting} (hpos : ∀ p, 1 ≤ b.reg.nextClientId p)
    (e : RegistryEvent) : b.ReturnsId e := by
  cases e with
  | register now pid protocol addr socketFd =>
    by_cases hknown : ∃ p : Protocol, protocol = p.name
    · obtain ⟨p, rfl⟩ := hknown
      unfold ReturnsId
      dsimp only
      rw [Registry.registerClient_eq]
      split
      · exact .inl rfl
      · split
        · exact .inl rfl
        · next hmax => exact .inr ⟨hpos p, Int.not_lt.1 hmax⟩
    · have hunknown : ∀ p : Protocol, protocol ≠ p.name := fun p hp => hknown ⟨p, hp⟩
      left
      rw [Registry.registerClient_unknown _ now pid addr socketFd hunknown]
  | eraseTcp pid => trivial
  | cleanup now timeout => trivial

/-! ## A bound on the counters -/

/-- The counters are positive and within the bound. -/
def Bounded (bound : Int) (b : Granting) : Prop :=
  ∀ p, 1 ≤ b.reg.nextClientId p ∧ b.reg.nextClientId p ≤ bound

section

variable {bound : Int} {b : Granting} {e : RegistryEvent}

/-- An increment within the bound is exact. -/
theorem Bounded.next (hmax : bound ≤ INT_MAX) (hb : b.Bounded bound) (h : b.Within bound e)
    (p : Protocol) : (b.step e).reg.nextClientId p =
      b.reg.nextClientId p + if b.reg.takesId p e then 1 else 0 := by
  rw [nextClientId_step]
  split
  · next htakes =>
    have hpos := (hb p).1
    have hle := h p htakes
    refine toInt32_of_isInt ⟨?_, Int.le_trans hle hmax⟩
    unfold INT_MIN
    omega
  · rw [Int.add_zero]

theorem Bounded.step (hmax : bound ≤ INT_MAX) (hb : b.Bounded bound) (h : b.Within bound e) :
    (b.step e).Bounded bound := by
  intro p
  have hcounter := hb p
  have hle := h p
  rw [hb.next hmax h]
  split
  · next htakes =>
    have := hle htakes
    omega
  · omega

/-- The ids taken stay within the bound just when there are enough of them. -/
theorem Bounded.always_iff (hmax : bound ≤ INT_MAX) (hb : b.Bounded bound)
    (es : List RegistryEvent) :
    b.Always (Within bound) es ↔ ∀ p, b.reg.nextClientId p + idsTaken p b es ≤ bound := by
  induction es generalizing b with
  | nil => exact ⟨fun _ p => by simpa [idsTaken] using (hb p).2, fun _ => trivial⟩
  | cons e es ih =>
    constructor
    · intro h p
      obtain ⟨hwithin, hrest⟩ := h _ rfl
      have hle := (ih (hb.step hmax hwithin)).1 hrest p
      rw [hb.next hmax hwithin] at hle
      rw [idsTaken_cons]
      omega
    · intro h
      have hwithin : b.Within bound e := by
        intro p htakes
        have hle := h p
        rw [idsTaken_cons, if_pos htakes] at hle
        omega
      rintro _ ⟨⟩
      refine ⟨hwithin, (ih (hb.step hmax hwithin)).2 fun p => ?_⟩
      have hle := h p
      rw [idsTaken_cons] at hle
      rw [hb.next hmax hwithin]
      omega

end

/-! ## The limit on ids and the limit of `int` -/

theorem start_bounded {bound : Int} (h : 1 ≤ bound) : start.Bounded bound := by
  intro p
  cases p <;> exact ⟨Int.le_refl _, h⟩

/-- While no counter is past the limit, all that is asked is that none gets there. -/
theorem countsSafely_iff {b : Granting} (hb : b.Bounded (MAX_CLIENTS_ID + 1)) (e : RegistryEvent) :
    b.CountsSafely e ↔ b.Within (MAX_CLIENTS_ID + 1) e := by
  constructor
  · intro h p htakes
    have hcounter := hb p
    have hint := h.inRange p htakes
    by_contra hover
    have hsame := h.stops p (by omega)
    have hfits : IsInt (b.reg.nextClientId p + 1) := ⟨by unfold INT_MIN; omega, hint⟩
    rw [nextClientId_step, if_pos htakes, toInt32_of_isInt hfits] at hsame
    omega
  · intro h
    refine ⟨fun p htakes => Int.le_trans (h p htakes) (by decide), fun p hpast => ?_,
      returnsId_of_pos (fun p => (hb p).1) e⟩
    rw [nextClientId_step, if_neg]
    intro htakes
    have := h p htakes
    omega

/-- **How far the counters can be trusted**: all of it holds just in the runs
that take no more ids than there are, and the increments and what is returned
are right just in those that take fewer than an `int` can count. -/
theorem counters_safe_iff (es : List RegistryEvent) :
    (start.Always CountsSafely es ↔ ∀ p, (idsTaken p start es : Int) ≤ MAX_CLIENTS_ID) ∧
      (start.Always (fun b e => b.Within INT_MAX e ∧ b.ReturnsId e) es ↔
        ∀ p, (idsTaken p start es : Int) < INT_MAX) := by
  have hone : ∀ p, start.reg.nextClientId p = 1 := by
    intro p
    cases p <;> rfl
  constructor
  · have hbound : MAX_CLIENTS_ID + 1 ≤ INT_MAX := by decide
    have hstart : start.Bounded (MAX_CLIENTS_ID + 1) := start_bounded (by decide)
    have hsame : start.Always CountsSafely es ↔ start.Always (Within (MAX_CLIENTS_ID + 1)) es := by
      refine Along.congr_under (I := Bounded (MAX_CLIENTS_ID + 1)) ?_ ?_ hstart
      · rintro b e _ hb ⟨⟩ h
        exact hb.step hbound ((countsSafely_iff hb e).1 h)
      · exact fun b e hb => countsSafely_iff hb e
    rw [hsame, hstart.always_iff hbound]
    refine forall_congr' fun p => ?_
    rw [hone]
    omega
  · have hstart : start.Bounded INT_MAX := start_bounded (by decide)
    have hsame : start.Always (fun b e => b.Within INT_MAX e ∧ b.ReturnsId e) es ↔
        start.Always (Within INT_MAX) es := by
      refine Along.congr_under (I := Bounded INT_MAX) ?_ ?_ hstart
      · rintro b e _ hb ⟨⟩ h
        exact hb.step (Int.le_refl _) h.1
      · exact fun b e hb => and_iff_left (returnsId_of_pos (fun p => (hb p).1) e)
    rw [hsame, hstart.always_iff (Int.le_refl _)]
    refine forall_congr' fun p => ?_
    rw [hone]
    omega

/-! ## A client that comes and goes -/

/-- A client connects over TCP, announces its PID and leaves, so many times. -/
def comingsAndGoings (n : Nat) : List RegistryEvent :=
  (List.replicate n [.register 0 7 "TCP" ⟨⟨127, 0, 0, 1⟩, 5000⟩ 5, .eraseTcp 7]).flatten

theorem comingsAndGoings_succ (n : Nat) : comingsAndGoings (n + 1) =
    .register 0 7 "TCP" ⟨⟨127, 0, 0, 1⟩, 5000⟩ 5 :: .eraseTcp 7 :: comingsAndGoings n := by
  rw [comingsAndGoings, List.replicate_succ, List.flatten_cons]
  rfl

/-- Each time takes an id, and the client is gone again. -/
theorem comingsAndGoings_takes (n : Nat) {b : Granting}
    (hgone : b.reg.clientMapTcp.contains 7 = false) (hint : IsInt (b.reg.nextClientId .tcp)) :
    idsTaken .tcp b (comingsAndGoings n) = n ∧
      ((comingsAndGoings n).foldl step b).reg.clientMapTcp.contains 7 = false ∧
      ((comingsAndGoings n).foldl step b).reg.nextClientId .tcp =
        toInt32 (b.reg.nextClientId .tcp + n) := by
  induction n generalizing b with
  | zero =>
    refine ⟨rfl, hgone, ?_⟩
    rw [Int.natCast_zero, Int.add_zero, toInt32_of_isInt hint]
    rfl
  | succ n ih =>
    rw [comingsAndGoings_succ]
    generalize he : RegistryEvent.register 0 7 "TCP" ⟨⟨127, 0, 0, 1⟩, 5000⟩ 5 = e
    have htakes : b.reg.takesId .tcp e = true := by
      subst he
      simp [Registry.takesId, Registry.clientMap, Protocol.name, hgone]
    have hleft : ((b.step e).step (.eraseTcp 7)).reg.clientMapTcp.contains 7 = false := by
      show ((b.step e).reg.clientMapTcp.erase 7).contains 7 = false
      simp
    have hnext : ((b.step e).step (.eraseTcp 7)).reg.nextClientId .tcp =
        toInt32 (b.reg.nextClientId .tcp + 1) := by
      rw [nextClientId_step, if_neg (by simp [Registry.takesId]), nextClientId_step, if_pos htakes]
    obtain ⟨htaken, hgone', hcounter⟩ := ih hleft (hnext ▸ toInt32_isInt _)
    refine ⟨?_, hgone', ?_⟩
    · rw [idsTaken, idsTaken, htaken, if_pos htakes, if_neg (by simp [Registry.takesId])]
      omega
    · refine hcounter.trans ?_
      rw [hnext, toInt32, toInt32, Int.bmod_add_bmod, toInt32]
      congr 1
      push_cast
      omega

/-- What the next client is given, unless that is past the limit. -/
theorem comingsAndGoings_next (n : Nat) (hroom : toInt32 (1 + n) ≤ MAX_CLIENTS_ID) :
    ((run (comingsAndGoings n)).reg.registerClient 0 7 "TCP" ⟨⟨127, 0, 0, 1⟩, 5000⟩ 5).1 =
      toInt32 (1 + n) := by
  obtain ⟨_, hgone, hcounter⟩ := comingsAndGoings_takes n (b := start) (by decide) (by decide)
  have hnext : (run (comingsAndGoings n)).reg.nextClientId .tcp = toInt32 (1 + n) := hcounter
  have hfree : ((run (comingsAndGoings n)).reg.clientMap .tcp).contains 7 = false := hgone
  refine (congrArg Prod.fst (Registry.registerClient_eq _ .tcp 0 7 _ 5)).trans ?_
  rw [hfree, if_neg Bool.false_ne_true, hnext, if_neg (Int.not_lt.2 hroom)]

/-- The counter leaves the range of `int`, and the next client gets the smallest one. -/
theorem counter_overflows :
    ¬ start.Always CountsSafely (comingsAndGoings 2147483647) ∧
      ¬ start.Always (Within INT_MAX) (comingsAndGoings 2147483647) ∧
      ((run (comingsAndGoings 2147483647)).reg.registerClient 0 7 "TCP"
        ⟨⟨127, 0, 0, 1⟩, 5000⟩ 5).1 = -2147483648 := by
  have hover : ¬ start.Always (Within INT_MAX) (comingsAndGoings 2147483647) := by
    intro h
    have hle := ((start_bounded (by decide)).always_iff (Int.le_refl _) _).1 h .tcp
    rw [(comingsAndGoings_takes 2147483647 (b := start) (by decide) (by decide)).1] at hle
    exact absurd hle (by decide)
  exact ⟨fun h => hover (h.mono fun b e hsafe => hsafe.inRange), hover,
    comingsAndGoings_next 2147483647 (by decide)⟩

end Granting

end LogisticService
