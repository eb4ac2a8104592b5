import LogisticService.Client.Console

/-!
# How a client announces itself

`initialize_client_udp` and `initialize_client_tcp`: the client prints its PID
into an array of six characters and sends it, over UDP the whole array and over
TCP the text in it. The array is not initialized, so what it holds before is an
argument here. A text that does not fit it is written past its end, which is
undefined.
-/

namespace LogisticService

open Effects

def CL_PID_STR_SIZE : Nat := 6

/-- `cl_pid_str`. -/
abbrev PidArray := { cs : List Char // cs.length = CL_PID_STR_SIZE }

/-- `sprintf` with `"%d"` into the array; none when the text and its terminator
do not fit. -/
def printPid (array : PidArray) (pid : Int) : Option PidArray :=
  let text := (toString pid).toList ++ ['\x00']
  if h : text.length ≤ CL_PID_STR_SIZE then
    some ⟨text ++ array.1.drop text.length, by
      rw [List.length_append, List.length_drop, array.2]
      omega⟩
  else none

inductive HandshakeOperation
  | gethostbyname (host : String)
  | socket
  | connect
  | getpid
  | sendto (payload : String)
  | send (payload : String)
  | close
  | startMessageReceiver (protocol : String)
  | print (message : String)

/-- A call succeeds or fails; `getpid` always succeeds. -/
abbrev HandshakeOperation.Reply : HandshakeOperation → Type
  | .gethostbyname _ | .socket | .connect | .sendto _ | .send _ | .startMessageReceiver _ => Bool
  | .getpid => Int
  | .close | .print _ => Unit

/-- The effect signature of a client that connects. -/
def Handshake : Signature := ⟨HandshakeOperation, HandshakeOperation.Reply⟩

/-- A part of the connection; its result is the C function's. -/
abbrev Connecting := Program Handshake Stop

/-- Do one operation. -/
def dial (o : HandshakeOperation) : Program Handshake Stop o.Reply :=
  @Program.perform Handshake Stop o

/-- An error message, and the result of a function that failed. -/
def failWith (message : String) : Connecting Int := do
  dial (.print message)
  return -1

/-- The same after the socket is closed. -/
def closeWith (message : String) : Connecting Int := do
  dial (.print message)
  dial .close
  return -1

/-- The end of both functions, from the send on. -/
def announce (send : Connecting Bool) (clientPid : Int) (protocol : String) : Connecting Int := do
  let sent ← send
  if !sent then closeWith "ERROR while sending client PID"
  else do
    dial (.print ("Client PID " ++ toString clientPid ++ " sent successfully\n"))
    dial (.print ("Client PID " ++ toString clientPid ++ "\n"))
    let started ← dial (.startMessageReceiver protocol)
    if !started then closeWith "ERROR: Could not start message receiver\n" else return 0

/-- The end of `initialize_client_udp`: `sizeof(cl_pid_str)` bytes are sent. -/
def announceUdp (clPidStr : PidArray) (clientPid : Int) : Connecting Int :=
  match printPid clPidStr clientPid with
  | none => .throw .undefined
  | some clPidStr => announce (dial (.sendto (String.ofList clPidStr.1))) clientPid "udp"

def initializeClientUdp (host : String) (clPidStr : PidArray) : Connecting Int := do
  let found ← dial (.gethostbyname host)
  if !found then failWith ("ERROR: Could not get the address of the server " ++ host ++ "\n")
  else do
    let opened ← dial .socket
    if !opened then failWith "ERROR in opening socket"
    else announceUdp clPidStr (← dial .getpid)

/-- The end of `initialize_client_tcp`: `strlen(cl_pid_str)` bytes are sent. -/
def announceTcp (clPidStr : PidArray) (clientPid : Int) : Connecting Int :=
  match printPid clPidStr clientPid with
  | none => .throw .undefined
  | some clPidStr =>
    announce (dial (.send (String.ofList (clPidStr.1.takeWhile (· ≠ '\x00'))))) clientPid "tcp"

def initializeClientTcp (host : String) (clPidStr : PidArray) : Connecting Int := do
  let found ← dial (.gethostbyname host)
  if !found then failWith ("ERROR: No such host: " ++ host ++ "\n")
  else do
    let opened ← dial .socket
    if !opened then failWith "ERROR opening socket"
    else do
      let connected ← dial .connect
      if !connected then closeWith "ERROR connecting"
      else announceTcp clPidStr (← dial .getpid)

/-- The connection over either transport. -/
def initializeClient : Transport → String → PidArray → Connecting Int
  | .udp => initializeClientUdp
  | .tcp => initializeClientTcp

end LogisticService
