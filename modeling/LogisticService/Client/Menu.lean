import LogisticService.Client.Auth
import LogisticService.Effects.Approximation

/-!
# The client's menus

`menu.c`: the protocol, authentication and connected menus, which call each
other and never share a frame, and the commands behind their options. Every
loop takes `fuel`, the turns and calls it is given; a run that needs more stops
with `outOfFuel`, so the runs of every fuel are the beginnings of all runs.
-/

namespace LogisticService

open Effects CLib

/-- A line without its newline. -/
def lineOf (line : List Byte) : CString := (CString.ofBytes line).upTo newline

/-- `sscanf` with `"%d"`. -/
def scanInt (buffer : CString) : Option Int :=
  let text := String.ofList (buffer.bytes.map fun b => Char.ofNat b.toNat)
  (decimalPrefix text).map fun _ => atoi text

/-- A character that a line with a number may hold. -/
def numberByte (b : Byte) : Bool := b = 32 || b = 9 || b = newline || (48 ≤ b && b ≤ 57)

/-- The number of a line that holds only a number. -/
def menuNumber (buffer : CString) : Option Int :=
  if buffer.bytes.all numberByte then scanInt buffer else none

/-- The loop of `get_int_input`, which asks until the number is one of the options. -/
def getIntInput (low high : Int) : Nat → Interact Int
  | 0 => .throw .outOfFuel
  | fuel + 1 => do
    match ← consult (.fgets .option) with
    | none => return low
    | some line =>
      match menuNumber (.ofBytes line) with
      | none => getIntInput low high fuel
      | some option =>
        if low ≤ option ∧ option ≤ high then return option else getIntInput low high fuel

def initClientConnection (protocolChoice : Int) (g : Globals) : Interact (Bool × Globals) := do
  if protocolChoice = 1 then
    let ok ← consult (.initializeClient .udp)
    if ok then return (true, { g with isConnected := true }) else return (false, g)
  else if protocolChoice = 2 then
    let ok ← consult (.initializeClient .tcp)
    if ok then return (true, { g with isConnected := true }) else return (false, g)
  else return (false, g)

def startCommunication (protocolChoice : Int) (g : Globals) : Interact Globals := do
  if protocolChoice = 1 then
    match ← consult (.clientCommunicate .udp) with
    | none => .throw .exit
    | some result =>
      if result = 1 then return { g with isConnected := false }
      else if result < 0 then return { g with isConnected := false }
      else return g
  else if protocolChoice = 2 then
    match ← consult (.clientCommunicate .tcp) with
    | none => .throw .exit
    | some result => if result = -1 then return { g with isConnected := false } else return g
  else return g

def login (g : Globals) : Interact Globals := do
  match ← consult (.fgets .email) with
  | none => return g
  | some email =>
    match ← consult (.fgets .password) with
    | none => return g
    | some password =>
      let (ok, proxy) ← manageDbUserWithAuth .zero (lineOf email) (lineOf password)
      if ok then
        consult (.moment .authenticated)
        return { g with isLoggedIn := true, authProxy := proxy }
      else
        consult (.moment .refused)
        return { g with isLoggedIn := false, authProxy := proxy }

def selectProtocolAndConnect (fuel : Nat) (g : Globals) : Interact Globals := do
  if g.isConnected then return g
  else
    let option ← getIntInput 1 2 fuel
    let g := { g with optionSelected := option }
    let (_, g) ← initClientConnection g.optionSelected g
    return g

def sendMessage (g : Globals) : Interact Globals :=
  if !g.isConnected then return g else startCommunication g.optionSelected g

/-- A request that `list_connected_clients` or `show_message_reports` sends. -/
def request (message : String) (g : Globals) : Interact Globals := do
  if !g.isConnected then return g
  else if g.optionSelected = 1 then
    let _ ← consult (.sendto message)
    return g
  else if g.optionSelected = 2 then
    let _ ← consult (.send message)
    return g
  else return g

def listConnectedClients : Globals → Interact Globals := request "LIST_CLIENTS"

def showMessageReports : Globals → Interact Globals := request "SHOW_REPORT"

def disconnect (g : Globals) : Interact Globals :=
  if g.isConnected then .throw .exit else return g

def logout (g : Globals) : Interact Globals := do
  let g := { g with authProxy := logoutProxy g.authProxy, isLoggedIn := false }
  consult (.moment .loggedOut)
  return g

mutual

def showProtocolMenu : Nat → Globals → Interact Globals
  | 0, _ => .throw .outOfFuel
  | fuel + 1, g => do
    let option ← getIntInput 1 2 fuel
    if option = 1 then
      let g ← selectProtocolAndConnect fuel g
      let g ← if g.isConnected then showAuthMenu fuel g else pure g
      if !g.isConnected then showProtocolMenu fuel g else return g
    else if option = 2 then .throw .exit
    else if !g.isConnected then showProtocolMenu fuel g
    else return g

def showAuthMenu : Nat → Globals → Interact Globals
  | 0, _ => .throw .outOfFuel
  | fuel + 1, g => do
    let again (g : Globals) : Interact Globals :=
      if g.isConnected && !g.isLoggedIn then showAuthMenu fuel g else return g
    let option ← getIntInput 1 3 fuel
    if option = 1 then
      let g ← login g
      if g.isLoggedIn then
        let g ← showConnectedMenu fuel g
        if g.isConnected && !g.isLoggedIn then again g
        else if !g.isConnected then return g
        else again g
      else again g
    else if option = 2 then
      let _ ← consult .manageDbUser
      again g
    else if option = 3 then disconnect g
    else again g

def showConnectedMenu : Nat → Globals → Interact Globals
  | 0, _ => .throw .outOfFuel
  | fuel + 1, g => do
    consult (.moment .connectedMenu)
    connectedMenuTurns fuel g

/-- The loop of `show_connected_menu`. -/
def connectedMenuTurns : Nat → Globals → Interact Globals
  | 0, _ => .throw .outOfFuel
  | fuel + 1, g => do
    let again (g : Globals) : Interact Globals :=
      if !g.isConnected then return g
      else if g.isConnected && g.isLoggedIn then connectedMenuTurns fuel g
      else return g
    let option ← getIntInput 1 5 fuel
    if option = 1 then
      let g ← sendMessage g
      again g
    else if option = 2 then
      let g ← listConnectedClients g
      again g
    else if option = 3 then
      let g ← showMessageReports g
      again g
    else if option = 4 then
      let g ← logout g
      if !g.isLoggedIn && g.isConnected then showAuthMenu fuel g
      else if !g.isConnected then return g
      else again g
    else if option = 5 then
      let g ← disconnect g
      again g
    else again g

end

/-! ## The end of a turn -/

/-- `show_protocol_menu` goes on while there is no connection. -/
def protocolAgain (fuel : Nat) (g : Globals) : Interact Globals :=
  if !g.isConnected then showProtocolMenu fuel g else return g

/-- `show_auth_menu` goes on while nobody is logged in on the connection. -/
def authAgain (fuel : Nat) (g : Globals) : Interact Globals :=
  if g.isConnected && !g.isLoggedIn then showAuthMenu fuel g else return g

/-- `show_connected_menu` goes on while somebody is. -/
def connectedAgain (fuel : Nat) (g : Globals) : Interact Globals :=
  if !g.isConnected then return g
  else if g.isConnected && g.isLoggedIn then connectedMenuTurns fuel g
  else return g

/-! ## The answers to `get_int_input` -/

/-- What `get_int_input` does with what it read. -/
def afterRead (low high : Int) (fuel : Nat) : Option (List Byte) → Interact Int
  | none => .pure low
  | some line =>
    match menuNumber (.ofBytes line) with
    | none => getIntInput low high fuel
    | some option =>
      if low ≤ option ∧ option ≤ high then .pure option else getIntInput low high fuel

section

variable {low high : Int} {fuel : Nat} {line : List Byte}

theorem getIntInput_succ :
    getIntInput low high (fuel + 1) = consult (.fgets .option) >>= afterRead low high fuel := by
  refine congrArg (consult (.fgets .option) >>= ·) (funext fun read => ?_)
  cases read <;> rfl

theorem afterRead_none (h : menuNumber (.ofBytes line) = none) :
    afterRead low high fuel (some line) = getIntInput low high fuel := by
  simp only [afterRead, h]

theorem afterRead_some {option : Int} (h : menuNumber (.ofBytes line) = some option) :
    afterRead low high fuel (some line) =
      if low ≤ option ∧ option ≤ high then .pure option else getIntInput low high fuel := by
  simp only [afterRead, h]

/-- A line is an option, or there is another question. -/
theorem afterRead_cases (low high : Int) (fuel : Nat) (line : List Byte) :
    (∃ option, afterRead low high fuel (some line) = .pure option) ∨
      afterRead low high fuel (some line) = getIntInput low high fuel := by
  cases hmenu : menuNumber (.ofBytes line) with
  | none => exact .inr (afterRead_none hmenu)
  | some option =>
    rw [afterRead_some hmenu]
    split
    · exact .inl ⟨option, rfl⟩
    · exact .inr rfl

end

/-! ## More turns -/

section

open Program

theorem getIntInput_approx (low high : Int) (fuel : Nat) :
    Approx .outOfFuel (getIntInput low high fuel) (getIntInput low high (fuel + 1)) := by
  induction fuel with
  | zero => exact .cut _
  | succ fuel ih =>
    refine .bind_right _ fun read => ?_
    cases read with
    | none => exact .refl _
    | some line =>
      dsimp only
      cases menuNumber (.ofBytes line) with
      | none => exact ih
      | some option => exact .ite (.refl _) ih

theorem selectProtocolAndConnect_approx (fuel : Nat) (g : Globals) :
    Approx .outOfFuel (selectProtocolAndConnect fuel g) (selectProtocolAndConnect (fuel + 1) g) :=
  .ite (.refl _) (.bind (getIntInput_approx 1 2 fuel) fun _ => .refl _)

/-- With one more turn the menus do the same, and more where they were cut off. -/
structure MenusApprox (fuel : Nat) : Prop where
  protocol : ∀ g, Approx .outOfFuel (showProtocolMenu fuel g) (showProtocolMenu (fuel + 1) g)
  auth : ∀ g, Approx .outOfFuel (showAuthMenu fuel g) (showAuthMenu (fuel + 1) g)
  connected : ∀ g, Approx .outOfFuel (showConnectedMenu fuel g) (showConnectedMenu (fuel + 1) g)
  turns : ∀ g, Approx .outOfFuel (connectedMenuTurns fuel g) (connectedMenuTurns (fuel + 1) g)

variable {fuel : Nat}

theorem showProtocolMenu_approx (h : MenusApprox fuel) (g : Globals) :
    Approx .outOfFuel (showProtocolMenu (fuel + 1) g) (showProtocolMenu (fuel + 1 + 1) g) := by
  have hagain : ∀ g, Approx .outOfFuel (protocolAgain fuel g) (protocolAgain (fuel + 1) g) :=
    fun g => .ite (h.protocol g) (.refl _)
  unfold showProtocolMenu
  refine .bind (getIntInput_approx 1 2 fuel) fun option => .ite ?_ (.ite (.refl _) (hagain g))
  refine .bind (selectProtocolAndConnect_approx fuel g) fun g => ?_
  exact .ite (.bind (h.auth g) hagain) (.bind_right _ hagain)

theorem showAuthMenu_approx (h : MenusApprox fuel) (g : Globals) :
    Approx .outOfFuel (showAuthMenu (fuel + 1) g) (showAuthMenu (fuel + 1 + 1) g) := by
  have hagain : ∀ g, Approx .outOfFuel (authAgain fuel g) (authAgain (fuel + 1) g) :=
    fun g => .ite (h.auth g) (.refl _)
  unfold showAuthMenu
  refine .bind (getIntInput_approx 1 3 fuel) fun option => .ite ?_ (.ite ?_ (.ite (.refl _) ?_))
  · refine .bind_right _ fun g => .ite ?_ (hagain g)
    exact .bind (h.connected g) fun g => .ite (hagain g) (.ite (.refl _) (hagain g))
  · exact .bind_right _ fun _ => hagain g
  · exact hagain g

theorem connectedMenuTurns_approx (h : MenusApprox fuel) (g : Globals) :
    Approx .outOfFuel (connectedMenuTurns (fuel + 1) g)
      (connectedMenuTurns (fuel + 1 + 1) g) := by
  have hagain : ∀ g, Approx .outOfFuel (connectedAgain fuel g) (connectedAgain (fuel + 1) g) :=
    fun g => .ite (.refl _) (.ite (h.turns g) (.refl _))
  unfold connectedMenuTurns
  refine .bind (getIntInput_approx 1 5 fuel) fun option => .ite ?_ (.ite ?_ (.ite ?_ (.ite ?_ ?_)))
  · exact .bind_right _ hagain
  · exact .bind_right _ hagain
  · exact .bind_right _ hagain
  · exact .bind_right _ fun g => .ite (h.auth g) (.ite (.refl _) (hagain g))
  · exact .ite (.bind_right _ hagain) (hagain g)

theorem menusApprox (fuel : Nat) : MenusApprox fuel := by
  induction fuel with
  | zero => exact ⟨fun _ => .cut _, fun _ => .cut _, fun _ => .cut _, fun _ => .cut _⟩
  | succ fuel ih =>
    exact ⟨showProtocolMenu_approx ih, showAuthMenu_approx ih,
      fun g => .bind_right _ fun _ => ih.turns g, connectedMenuTurns_approx ih⟩

end

end LogisticService
