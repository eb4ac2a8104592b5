import LogisticService.Server.Handlers

/-!
# The running server

The UDP handler and any number of TCP connections, each with the message it is
handling, over the shared state. An `Event` is what the outside does: a
session that does not open, a datagram, a new connection, a read or a hangup on
one, the next operation of some handler, a cleanup pass, the passing of time.
Operations of different handlers interleave freely; an exception that leaves a
handler ends the server.

A handler opens its database session before it first receives anything; a
session that does not open throws out of the handler as well.

Of the locks only `ordersMutex` outlives an operation: a report keeps it while
it is sent, and until then no other handler stores an order or reads the
totals.

The record of the run is kept beside the state: the operations answered so far
(`log`) and the messages handled to completion (`finished`).
-/

namespace LogisticService

open Effects

/-- A handler: the one of the UDP socket, or that of the `i`th connection. -/
inductive Who
  | udp
  | tcp (i : Nat)
deriving DecidableEq

/-- Whom a handler answers: the sender of a datagram, or a connected socket. -/
inductive Origin
  | udp (cliAddr : SockAddr)
  | tcp (clientSockfd : Int)
deriving DecidableEq

def BUFFER_SIZE_SERVER : Nat := 2048

/-- The C string a receive leaves in the zeroed buffer. -/
def receivedText (payload : String) : String :=
  String.ofList ((payload.toList.take (BUFFER_SIZE_SERVER - 1)).takeWhile (· ≠ '\x00'))

/-- One iteration of the handler that serves `origin`. -/
def iteration (env : Env) (origin : Origin) (buffer : String) (s : Loop) : Handling Loop :=
  match origin with
  | .udp cliAddr => handleUdpClients env cliAddr buffer s
  | .tcp clientSockfd => handleTcpClient env clientSockfd buffer s

/-- A message under handling: the loop variables when it arrived, and the
operations answered since. -/
structure Job (env : Env) where
  origin : Origin
  buffer : String
  loop : Loop
  task : Task (iteration env origin buffer loop)

def Job.begin (env : Env) (origin : Origin) (buffer : String) (loop : Loop) : Job env :=
  ⟨origin, buffer, loop, .begin _⟩

/-- The next operation of the job locks `ordersMutex`. -/
def Job.locksOrders {env : Env} (job : Job env) : Bool :=
  job.task.next?.any Operation.locksOrders

/-- The job holds `ordersMutex`: it has read the totals for a report, and the
report is the last thing an iteration does. -/
def Job.holdsOrders {env : Env} (job : Job env) : Bool :=
  job.task.history.any fun e => Operation.keepsOrders e.1

/-- A message handled to completion, with the loop variables it left. -/
structure Finished (env : Env) where
  who : Who
  job : Job env
  result : Loop
  done : job.task.rest = .pure result

inductive Activity (env : Env)
  | idle (loop : Loop)
  | busy (job : Job env)

/-- The loop variables: those of the last completed iteration. -/
def Activity.loop {env : Env} : Activity env → Loop
  | .idle loop => loop
  | .busy job => job.loop

/-- How far a connection's handler is: before its first read, serving under
the PID it read (`0` when it read no number), or gone. -/
inductive Phase (env : Env)
  | awaitPid
  | serving (clientPid : Int) (activity : Activity env)
  | closed

structure Conn (env : Env) where
  fd : Int
  cliAddr : SockAddr
  phase : Phase env

def Conn.isOpen {env : Env} (c : Conn env) : Bool :=
  match c.phase with
  | .closed => false
  | _ => true

/-- The handler's next activity, under the PID it has. -/
def Conn.become {env : Env} (c : Conn env) (activity : Activity env) : Conn env :=
  match c.phase with
  | .serving clientPid _ => { c with phase := .serving clientPid activity }
  | _ => c

/-- The connection's handler starts on a message it read. -/
def Conn.handle {env : Env} (c : Conn env) (buffer : String) (loop : Loop) : Conn env :=
  c.become (.busy (.begin env (.tcp c.fd) buffer loop))

/-- The message a handler is on, if any. -/
def Activity.jobs {env : Env} : Activity env → List (Job env)
  | .idle _ => []
  | .busy job => [job]

def Conn.jobs {env : Env} (c : Conn env) : List (Job env) :=
  match c.phase with
  | .serving _ activity => activity.jobs
  | _ => []

/-- One answered operation, and the message it was asked for. -/
structure Logged where
  who : Who
  origin : Origin
  buffer : String
  event : Answered Server

structure Sys (env : Env) where
  shared : Shared
  udp : Activity env
  conns : List (Conn env)
  crashed : Bool
  log : List Logged
  finished : List (Finished env)

inductive Event
  | connectFails (who : Who)
  | datagram (cliAddr : SockAddr) (payload : String)
  | accept (fd : Int) (cliAddr : SockAddr)
  | read (i : Nat) (payload : String)
  | hangup (i : Nat)
  | proceed (who : Who) (ok : Bool)
  | cleanup (timeout : Int)
  | tick (d : Nat)

namespace Sys

variable {env : Env}

/-- A server that has just started over some tables. -/
def start (tables : Tables) : Sys env :=
  { shared := .start tables, udp := .idle .start, conns := [], crashed := false, log := [],
    finished := [] }

/-- The messages under way. -/
def active (s : Sys env) : List (Job env) := s.udp.jobs ++ s.conns.flatMap Conn.jobs

/-! ## Before the first receive -/

/-- The handler has received nothing yet. -/
def starting (s : Sys env) : Who → Bool
  | .udp => s.udp.jobs.isEmpty && s.finished.all fun f => decide (f.who ≠ .udp)
  | .tcp i =>
    match (s.conns[i]?).map Conn.phase with
    | some .awaitPid => true
    | _ => false

/-- `connectToDb` throws. -/
def connectFails (s : Sys env) (who : Who) : Option (Sys env) :=
  if s.starting who then some { s with crashed := true } else none

/-! ## The receive loops -/

/-- `recvfrom` returns a datagram. -/
def datagram (s : Sys env) (cliAddr : SockAddr) (payload : String) : Option (Sys env) :=
  match s.udp with
  | .idle loop =>
    some { s with udp := .busy (.begin env (.udp cliAddr) (receivedText payload) loop) }
  | .busy _ => none

/-- `accept` returns a descriptor that no open connection has. -/
def accept (s : Sys env) (fd : Int) (cliAddr : SockAddr) : Option (Sys env) :=
  if s.conns.any fun c => c.isOpen && c.fd == fd then none
  else some { s with conns := s.conns ++ [⟨fd, cliAddr, .awaitPid⟩] }

/-- The first read of a connection: it registers the PID, unless there is none. -/
def readPid (s : Sys env) (i : Nat) (c : Conn env) (buffer : String) : Sys env :=
  let clientPid := atoi buffer
  if clientPid ≠ 0 then
    let r := s.shared.clients.registerClient s.shared.clock clientPid "TCP" c.cliAddr c.fd
    { s with
      shared := { s.shared with clients := r.2 }
      conns := s.conns.set i
        { c with phase := .serving clientPid (.idle { Loop.start with clientId := r.1 }) } }
  else { s with conns := s.conns.set i { c with phase := .serving clientPid (.idle .start) } }

/-- `read` on a connection returns at least one byte. -/
def read (s : Sys env) (i : Nat) (payload : String) : Option (Sys env) :=
  match s.conns[i]? with
  | none => none
  | some c =>
    match c.phase with
    | .awaitPid => some (s.readPid i c (receivedText payload))
    | .serving _ (.idle loop) =>
      some { s with conns := s.conns.set i (c.handle (receivedText payload) loop) }
    | _ => none

/-- `read` on a connection returns nothing: the handler closes the socket and,
past its first read, erases its PID from the map. -/
def hangup (s : Sys env) (i : Nat) : Option (Sys env) :=
  match s.conns[i]? with
  | none => none
  | some c =>
    let s' := { s with conns := s.conns.set i { c with phase := .closed } }
    match c.phase with
    | .awaitPid => some s'
    | .serving clientPid (.idle _) =>
      if clientPid ≠ 0 then
        some { s' with shared := { s.shared with clients := s.shared.clients.eraseTcp clientPid } }
      else some s'
    | _ => none

/-! ## The operations of the handlers -/

/-- What a handler is doing, once it serves. -/
def activity? (s : Sys env) : Who → Option (Activity env)
  | .udp => some s.udp
  | .tcp i =>
    match (s.conns[i]?).map Conn.phase with
    | some (.serving _ activity) => some activity
    | _ => none

def setActivity (s : Sys env) (who : Who) (activity : Activity env) : Sys env :=
  match who with
  | .udp => { s with udp := activity }
  | .tcp i => { s with conns := s.conns.modify i (·.become activity) }

/-- One operation of a job was answered: the job goes on, is done, or throws. -/
def settle (s : Sys env) (who : Who) (job : Job env) : Sys env :=
  match h : job.task.rest with
  | .call _ _ => s.setActivity who (.busy job)
  | .pure result =>
    { s.setActivity who (.idle result) with
      finished := s.finished ++ [⟨who, job, result, h⟩] }
  | .throw _ => { s.setActivity who (.busy job) with crashed := true }

/-- Some handler holds `ordersMutex`. -/
def ordersLocked (s : Sys env) : Bool := s.active.any Job.holdsOrders

/-- The next operation of a handler happens, unless it has to wait for
`ordersMutex`. -/
def proceed (s : Sys env) (who : Who) (ok : Bool) : Option (Sys env) :=
  match s.activity? who with
  | some (.busy job) =>
    if job.locksOrders && s.ordersLocked then none
    else
      match job.task.step (answer env ok) s.shared with
      | some (event, task, shared) =>
        some (settle
          { s with shared, log := s.log ++ [⟨who, job.origin, job.buffer, event⟩] }
          who { job with task })
      | none => none
  | _ => none

/-- A pass of the cleanup thread. -/
def cleanup (s : Sys env) (timeout : Int) : Sys env :=
  { s with shared := { s.shared with
    clients := s.shared.clients.cleanupInactiveUdpClients s.shared.clock timeout } }

/-- Time passes. -/
def tick (s : Sys env) (d : Nat) : Sys env :=
  { s with shared := { s.shared with clock := s.shared.clock + d } }

/-- One event, when it can happen. -/
def step (s : Sys env) (e : Event) : Option (Sys env) :=
  if s.crashed then none
  else match e with
    | .connectFails who => s.connectFails who
    | .datagram cliAddr payload => s.datagram cliAddr payload
    | .accept fd cliAddr => s.accept fd cliAddr
    | .read i payload => s.read i payload
    | .hangup i => s.hangup i
    | .proceed who ok => s.proceed who ok
    | .cleanup timeout => some (s.cleanup timeout)
    | .tick d => some (s.tick d)

/-- The state after a list of events. -/
def run (s : Sys env) (es : List Event) : Option (Sys env) := runSteps step s es

end Sys

end LogisticService
