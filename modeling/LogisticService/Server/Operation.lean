import LogisticService.Effects.Runs
import LogisticService.Inventory.Tables
import LogisticService.Order.Storage
import LogisticService.Server.Registry

/-!
# What a handler asks of its surroundings

The handlers run concurrently and share the database, the client maps, the
order store and the sockets. `Operation` lists the steps a handler takes on
them: a stored procedure call, a send, an access to a map, `storeOrder`.
`answer` says what a step returns and changes; its flag is the environment's
choice to let a database call or a send succeed. `runAlone` runs a part of a
handler with nothing in between.

Each step happens at once. For the order store this is what `ordersMutex`
gives, which a report keeps until it was sent (`Operation.locksOrders`). The
client maps have no lock: that one access to one of them happens at once is an
idealisation, as a traversal that another handler's insertion interrupts has no
meaning in the source.
-/

namespace LogisticService

open Effects

/-- What the model takes from outside the repository. -/
structure Env where
  json : JsonCpp
  collation : Collation

inductive Operation
  /-- `CALL getHubInventory(?, ?)` -/
  | getHubInventory (productName : String) (hubId : Int)
  /-- `CALL getWarehouseInventory(?, ?)` -/
  | getWarehouseInventory (productName : String) (warehouseId : Int)
  /-- `CALL updateHubInventory(?, ?, ?)` -/
  | updateHubInventory (hubId : Int) (productName : String) (quantity : Int)
  /-- `CALL updateWarehouseInventory(?, ?, ?)` -/
  | updateWarehouseInventory (warehouseId : Int) (productName : String) (quantity : Int)
  /-- `sendto` on the UDP socket -/
  | sendto (addr : SockAddr) (text : String)
  /-- `write` on a TCP socket -/
  | write (fd : Int) (text : String)
  | storeOrder (jsonStr : String)
  | registerClient (pid : Int) (protocol : String) (addr : SockAddr) (socketFd : Int)
  /-- `clientMapUdp.find(pid) != clientMapUdp.end()` -/
  | udpRegistered (pid : Int)
  | findClientById (clientId : Int) (protocol : String)
  /-- reading the UDP client map for a listing -/
  | clientMapUdp
  /-- reading the TCP client map for a listing -/
  | clientMapTcp
  /-- locking `ordersMutex` and reading the product totals for a report -/
  | productQuantities
deriving DecidableEq

namespace Operation

/-- A database call returns its result set or its count of changed rows, and
`none` when it ends in a `mysqlx::Error`; a send returns whether the count of
bytes sent is not negative. -/
abbrev Reply : Operation → Type
  | .getHubInventory .. | .getWarehouseInventory .. => Option (List (Option Int))
  | .updateHubInventory .. | .updateWarehouseInventory .. => Option Nat
  | .sendto .. | .write .. => Bool
  | .storeOrder _ => Except Exn Unit
  | .registerClient .. => Int
  | .udpRegistered _ => Bool
  | .findClientById .. => Option ClientInfo
  | .clientMapUdp | .clientMapTcp => ClientMap
  | .productQuantities => List (String × Int)

/-- The operation locks `ordersMutex`. -/
def locksOrders : Operation → Bool
  | .storeOrder _ | .productQuantities => true
  | _ => false

/-- It does not unlock it: the lock is kept until the report was sent. -/
def keepsOrders : Operation → Bool
  | .productQuantities => true
  | _ => false

end Operation

/-- The handlers' effect signature. -/
def Server : Signature := ⟨Operation, Operation.Reply⟩

/-- A part of a handler. -/
abbrev Handling (α : Type) := Program Server Exn α

/-- What the handlers share. -/
structure Shared where
  tables : Tables
  clients : Registry
  orders : OrderStore
  clock : Int

/-- What a server that has just started over some tables shares. -/
def Shared.start (tables : Tables) : Shared :=
  { tables, clients := .start, orders := .start, clock := 0 }

/-- The reply to an UPDATE and the table it leaves. -/
def answerUpdate (ok : Bool) (rows : List Row) (result : Option (List Row × Nat)) :
    Option Nat × List Row :=
  match ok, result with
  | true, some (rows', n) => (some n, rows')
  | _, _ => (none, rows)

/-- One operation, when the environment lets it succeed (`ok`) or not. -/
def answer (env : Env) (ok : Bool) (s : Shared) : (o : Operation) → o.Reply × Shared
  | .getHubInventory productName hubId =>
    (if ok then some (selectRows env.collation hubId productName s.tables.hubs) else none, s)
  | .getWarehouseInventory productName warehouseId =>
    (if ok then some (selectRows env.collation warehouseId productName s.tables.warehouses)
      else none, s)
  | .updateHubInventory hubId productName quantity =>
    let r := answerUpdate ok s.tables.hubs
      (updateRows env.collation hubId productName quantity s.tables.hubs)
    (r.1, { s with tables := { s.tables with hubs := r.2 } })
  | .updateWarehouseInventory warehouseId productName quantity =>
    let r := answerUpdate ok s.tables.warehouses
      (updateRows env.collation warehouseId productName quantity s.tables.warehouses)
    (r.1, { s with tables := { s.tables with warehouses := r.2 } })
  | .sendto _ _ => (ok, s)
  | .write _ _ => (ok, s)
  | .storeOrder jsonStr =>
    let r := s.orders.storeOrder env.json jsonStr
    (r.1, { s with orders := r.2 })
  | .registerClient pid protocol addr socketFd =>
    let r := s.clients.registerClient s.clock pid protocol addr socketFd
    (r.1, { s with clients := r.2 })
  | .udpRegistered pid => (s.clients.clientMapUdp.contains pid, s)
  | .findClientById clientId protocol => (s.clients.findClientById clientId protocol, s)
  | .clientMapUdp => (s.clients.clientMapUdp, s)
  | .clientMapTcp => (s.clients.clientMapTcp, s)
  | .productQuantities => (s.orders.productQuantities, s)

/-- Ask for one operation. -/
def ask (o : Operation) : Handling o.Reply := @Program.perform Server Exn o

/-- What a part of a handler meets when nothing else runs meanwhile: the
shared state, and which of the coming operations succeed. Those past the end
of the list do. -/
abbrev Alone := Shared × List Bool

def answerAlone (env : Env) : Program.Answer Server Alone := fun s o =>
  let r := answer env (s.2.headD true) s.1 o
  (r.1, r.2, s.2.tail)

/-- Run a part of a handler with nothing in between its operations. -/
def runAlone (env : Env) {α : Type} (p : Handling α) (s : Alone) : Except Exn α × Alone :=
  p.run (answerAlone env) s

@[simp] theorem runAlone_pure (env : Env) {α : Type} (a : α) (s : Alone) :
    runAlone env (Program.pure a) s = (.ok a, s) := rfl

@[simp] theorem runAlone_call (env : Env) {α : Type} (o : Operation)
    (k : o.Reply → Handling α) (s : Alone) :
    runAlone env (@Program.call Server Exn α o k) s =
      runAlone env (k (answer env (s.2.headD true) s.1 o).1)
        ((answer env (s.2.headD true) s.1 o).2, s.2.tail) := rfl

@[simp] theorem runAlone_ask (env : Env) (o : Operation) (s : Alone) :
    runAlone env (ask o) s = (.ok (answer env (s.2.headD true) s.1 o).1,
      (answer env (s.2.headD true) s.1 o).2, s.2.tail) := rfl

theorem runAlone_bind_of_ok {env : Env} {α β : Type} {p : Handling α} {f : α → Handling β}
    {s s' : Alone} {a : α} (h : runAlone env p s = (.ok a, s')) :
    runAlone env (p >>= f) s = runAlone env (f a) s' := by
  unfold runAlone at h ⊢
  rw [Program.run_bind, h]

end LogisticService
