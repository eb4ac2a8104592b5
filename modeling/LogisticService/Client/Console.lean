import LogisticService.CString
import LogisticService.Client.Communicate
import LogisticService.Text

/-!
# The client's console

What the interactive client asks of its surroundings: lines of standard input,
connections and exchanges with the server, the user database and `crypt`. The
globals of the menus are passed from call to call. A `Moment` asks for
nothing: it marks a point of the source that properties of a run speak of.
-/

namespace LogisticService

open Effects CLib

def BUFFER_SIZE_MENU : Nat := 1024

def BUFFER_PASS_USER : Nat := 110

def PROXY_MAX_USER_LENGTH : Nat := 100

def PROXY_MAX_ROLE_LENGTH : Nat := 50

def PROXY_MAX_NAME_LENGTH : Nat := 100

def PROXY_MAX_PASSWORD_LENGTH : Nat := 256

/-- The lines the client reads with `fgets`. -/
inductive Prompt
  | option
  | email
  | password
deriving DecidableEq

/-- The size of the buffer a line is read into. -/
def Prompt.size : Prompt → Nat
  | .option => BUFFER_SIZE_MENU
  | .email | .password => BUFFER_PASS_USER

/-- The columns a login selects. The table has no nulls in them. -/
structure UserRow where
  name : List Byte
  password : List Byte
  role : List Byte

/-- Calls on the user database that succeed or fail. -/
inductive DbCall
  | connectToDb
  | stmtInit
  | stmtPrepare (query : String)
  | stmtBindParam (email : CString)
  | stmtExecute
  | stmtBindResult

inductive Moment
  /-- `manageDbUserWithAuth` has returned true. -/
  | authenticated
  /-- `manageDbUserWithAuth` has returned false. -/
  | refused
  | loggedOut
  /-- `show_connected_menu` is entered. -/
  | connectedMenu
deriving DecidableEq

inductive ConsoleOperation
  | fgets (prompt : Prompt)
  | initializeClient (transport : Transport)
  | clientCommunicate (transport : Transport)
  | sendto (message : String)
  | send (message : String)
  | db (call : DbCall)
  /-- `mysql_stmt_fetch`, after the statement was executed for an email. -/
  | stmtFetch (email : CString)
  | crypt (password : CString) (salt : String)
  | manageDbUser
  | moment (moment : Moment)

namespace ConsoleOperation

/-- `fgets` and `crypt` may return a null pointer; an exchange may end the
process instead of returning; a connection is made when it returns 0. -/
abbrev Reply : ConsoleOperation → Type
  | .fgets _ => Option (List Byte)
  | .initializeClient _ => Bool
  | .clientCommunicate _ => Option Int
  | .sendto _ | .send _ => Bool
  | .db _ => Bool
  | .stmtFetch _ => Option UserRow
  | .crypt _ _ => Option CString
  | .manageDbUser | .moment _ => Unit

end ConsoleOperation

/-- The console's effect signature. -/
def Console : Signature := ⟨ConsoleOperation, ConsoleOperation.Reply⟩

/-- Why a part of the client does not return. -/
inductive Stop
  /-- The process ends with `exit`. -/
  | exit
  /-- The behaviour is undefined: a null pointer or a read past an array. -/
  | undefined
  /-- The loops were not given enough turns to end. -/
  | outOfFuel
deriving DecidableEq

/-- A part of the client. -/
abbrev Interact := Program Console Stop

/-- Ask for one operation. -/
def consult (o : ConsoleOperation) : Program Console Stop o.Reply := @Program.perform Console Stop o

/-- The session that `auth_proxy` holds. -/
structure AuthProxy where
  isAuthenticated : Bool
  authenticatedUser : CharArray PROXY_MAX_USER_LENGTH
  authenticatedRole : CharArray PROXY_MAX_ROLE_LENGTH

/-- The proxy after `memset` with zero. -/
def AuthProxy.zero : AuthProxy := ⟨false, .zero _, .zero _⟩

/-- The globals of the menus. -/
structure Globals where
  isConnected : Bool
  isLoggedIn : Bool
  optionSelected : Int
  authProxy : AuthProxy

def Globals.initial : Globals := ⟨false, false, 0, .zero⟩

/-! ## Surroundings that answer -/

/-- Standard input and how everything else behaves. -/
structure Surroundings (Table : Type) where
  stdin : List Byte
  connects : Transport → Bool
  communicated : Transport → Option Int
  sends : Bool
  succeeds : DbCall → Bool
  users : Table
  fetches : Bool

section

variable {Table : Type} (select : Table → CString → Option UserRow)
  (crypt : CString → String → Option CString)

/-- The answers, where `select` is the prepared statement: what it finds for an
email. -/
def respond : Program.Answer Console (Surroundings Table) := fun w o =>
  match o with
  | .fgets prompt =>
    match fgets prompt.size w.stdin with
    | none => (none, w)
    | some (line, rest) => (some line, { w with stdin := rest })
  | .initializeClient transport => (w.connects transport, w)
  | .clientCommunicate transport => (w.communicated transport, w)
  | .sendto _ => (w.sends, w)
  | .send _ => (w.sends, w)
  | .db call => (w.succeeds call, w)
  | .stmtFetch email => (if w.fetches then select w.users email else none, w)
  | .crypt password salt => (crypt password salt, w)
  | .manageDbUser => ((), w)
  | .moment _ => ((), w)

theorem respond_fgets (w : Surroundings Table) (prompt : Prompt) :
    respond select crypt w (.fgets prompt) = ((fgets prompt.size w.stdin).map Prod.fst,
      { w with stdin := ((fgets prompt.size w.stdin).map Prod.snd).getD w.stdin }) := by
  show (match fgets prompt.size w.stdin with
    | none => ((none : Option (List Byte)), w)
    | some (line, rest) => (some line, { w with stdin := rest })) = _
  cases fgets prompt.size w.stdin <;> rfl

end

/-- Surroundings of any kind with a finite standard input: `fgets` reads from
it, everything else may take from it what it likes. -/
structure Host (S : Type) where
  answer : Program.Answer Console S
  stdin : S → List Byte
  reads : ∀ s prompt, (answer s (.fgets prompt)).1 =
    (fgets prompt.size (stdin s)).map Prod.fst
  leaves : ∀ s prompt, stdin (answer s (.fgets prompt)).2 =
    ((fgets prompt.size (stdin s)).map Prod.snd).getD (stdin s)
  takes : ∀ s o, stdin (answer s o).2 <:+ stdin s

theorem Prompt.two_le_size (prompt : Prompt) : 2 ≤ prompt.size := by
  cases prompt <;> decide

namespace Host

variable {S : Type} (host : Host S) {s : S}

/-- At the end of the input nothing is read. -/
theorem reads_end (h : host.stdin s = []) (prompt : Prompt) :
    (host.answer s (.fgets prompt)).1 = none ∧
      host.stdin (host.answer s (.fgets prompt)).2 = [] := by
  rw [host.reads, host.leaves, h]
  exact ⟨rfl, rfl⟩

/-- Before that a line is read, and the input gets shorter. -/
theorem reads_line (h : host.stdin s ≠ []) (prompt : Prompt) :
    ∃ line, (host.answer s (.fgets prompt)).1 = some line ∧
      (host.stdin (host.answer s (.fgets prompt)).2).length < (host.stdin s).length := by
  rw [host.reads, host.leaves]
  cases hfgets : fgets prompt.size (host.stdin s) with
  | none =>
    cases hstdin : host.stdin s with
    | nil => exact absurd hstdin h
    | cons b stream =>
      rw [hstdin] at hfgets
      cases hfgets
  | some read =>
    obtain ⟨hne, happend⟩ := fgets_some prompt.two_le_size hfgets
    refine ⟨read.1, rfl, ?_⟩
    have hpos := List.length_pos_iff.2 hne
    have hlength := congrArg List.length happend
    rw [List.length_append] at hlength
    show read.2.length < _
    omega

/-- Surroundings with fixed replies are a host. -/
def fixed {Table : Type} (select : Table → CString → Option UserRow)
    (crypt : CString → String → Option CString) : Host (Surroundings Table) where
  answer := respond select crypt
  stdin := Surroundings.stdin
  reads s prompt := congrArg Prod.fst (respond_fgets select crypt s prompt)
  leaves s prompt :=
    congrArg (fun r => Surroundings.stdin r.2) (respond_fgets select crypt s prompt)
  takes s o := by
    cases o with
    | fgets prompt =>
      rw [respond_fgets]
      cases hfgets : fgets prompt.size s.stdin with
      | none => exact List.suffix_rfl
      | some read => exact ⟨read.1, (fgets_some prompt.two_le_size hfgets).2⟩
    | _ => exact List.suffix_rfl

end Host

end LogisticService
