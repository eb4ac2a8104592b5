import LogisticService.Order.Stock

/-!
# The handlers

One iteration of the UDP loop and one of a TCP connection's loop, each on one
received message. The order pipeline is the same in both but for what a failed
reply does: the UDP handler goes on, the TCP handler abandons the message
(`continue`). It is defined once over the handler's `reply`, which returns
whether the handler goes on.

The variables a handler declares outside its loop are `Loop`; an iteration
takes them as the previous one left them.
-/

namespace LogisticService

open Effects

/-- The loop-carried variables of a handler. -/
structure Loop where
  clientId : Int
  isValid : Bool
  productStock : Bool
  lowStock : Bool
  reStocked : Bool
  alertOut : String
  errorMessage : String
deriving DecidableEq

/-- Their initial values. -/
def Loop.start : Loop :=
  { clientId := 0, isValid := true, productStock := true, lowStock := false, reStocked := false,
    alertOut := "", errorMessage := "" }

/-! ## Forwarding and reports -/

/-- `Server::forwardMessageToClient`. -/
def forwardMessageToClient (message : String) (targetClientId : Int) (protocol : String) :
    Handling Unit := do
  match ← ask (.findClientById targetClientId protocol) with
  | none => return ()
  | some targetClient =>
    if protocol = "udp" then do
      let _ ← ask (.sendto targetClient.addr message)
      return ()
    else if protocol = "tcp" then do
      let _ ← ask (.write targetClient.socketFd message)
      return ()
    else return ()

/-- The lines of a listing for one client map. -/
def clientLines (title : String) (m : ClientMap) : String :=
  title ++ toString m.size ++ "\n" ++
    String.join (m.toList.map fun pair =>
      "  Client #" ++ toString pair.2.clientId ++ " PID: " ++ toString pair.1 ++ " IP: " ++
        pair.2.ipAddress ++ "\n")

/-- `Server::handleListClientsRequest`. -/
def handleListClientsRequest (protocol : String) (clientId : Int) : Handling Unit := do
  let clientMapUdp ← ask .clientMapUdp
  let clientMapTcp ← ask .clientMapTcp
  let response := "\n----- Connected Clients -----\n" ++
    clientLines "UDP Clients: " clientMapUdp ++ clientLines "TCP Clients: " clientMapTcp ++
    "----------------------------"
  forwardMessageToClient response clientId protocol

/-- The text of the product report. -/
def reportText (productQuantities : List (String × Int)) : String :=
  if productQuantities.isEmpty then "No product data stored yet.\n"
  else
    "\n----- Product Quantity Report -----\n" ++
      String.join (productQuantities.map fun pair =>
        "- " ++ pair.1 ++ ": " ++ toString pair.2 ++ "\n") ++
      "-----------------------------------"

/-- `Server::handleShowReportRequest`. It holds `ordersMutex` from its reading of
the totals to its end (`Job.holdsOrders`). -/
def handleShowReportRequest (protocol : String) (clientId : Int) : Handling Unit := do
  let totals ← ask .productQuantities
  forwardMessageToClient (reportText totals) clientId protocol

/-! ## `processMessage` -/

/-- What `processMessage` forwards for an order. -/
structure Forward where
  message : String
  targetClientId : Int
  protocol : String
deriving DecidableEq

/-- `"FORWARDED_MESSAGE: " + action_type + " " + quantity + " " + product_name` -/
def forwardText (actionType : String) (quantity : Int) (productName : String) : String :=
  "FORWARDED_MESSAGE: " ++ actionType ++ " " ++ toString quantity ++ " " ++ productName

/-- The conversions of `processMessage` on a `general_info` field, all of
which have to succeed, and the message it forwards. -/
def Forward.ofGeneralInfo (generalInfo : Value) : Except Exn Forward := do
  let _ ← (← generalInfo.get "id").asString
  let _ ← (← generalInfo.path ["source", "type"]).asString
  let sourceLocation ← (← generalInfo.path ["source", "location"]).asInt
  let _ ← (← generalInfo.path ["destination", "type"]).asString
  let _ ← (← generalInfo.path ["destination", "location"]).asInt
  let actionType ← (← generalInfo.path ["action", "type"]).asString
  let _ ← (← generalInfo.path ["action", "product", "id"]).asString
  let productName ← (← generalInfo.path ["action", "product", "name"]).asString
  let productQuantity ← (← generalInfo.path ["action", "product", "quantity"]).asInt
  let _ ← (← generalInfo.path ["metadata", "date"]).asString
  let _ ← (← generalInfo.path ["metadata", "message"]).asString
  let _ ← (← generalInfo.path ["metadata", "priority"]).asString
  let protocolDestination ← (← generalInfo.path ["metadata", "protocol"]).asString
  return { message := forwardText actionType productQuantity productName,
           targetClientId := sourceLocation, protocol := toLower protocolDestination }

/-- The message an order text is forwarded as; `none` when it does not parse
or has no `general_info`. -/
def Forward.ofText (json : JsonCpp) (msg : String) : Except Exn (Option Forward) := do
  match ← json.parse msg with
  | none => return none
  | some root =>
    if ← root.isMember "general_info" then
      return some (← Forward.ofGeneralInfo (← root.get "general_info"))
    else return none

/-- `Server::processMessage`. -/
def processMessage (json : JsonCpp) (msg : String) (protocol : String) (clientId : Int) :
    Handling Unit :=
  if msg = "LIST_CLIENTS" then handleListClientsRequest (toLower protocol) clientId
  else if msg = "SHOW_REPORT" then handleShowReportRequest (toLower protocol) clientId
  else do
    match ← Program.ofExcept (Forward.ofText json msg) with
    | none => return ()
    | some f => forwardMessageToClient f.message f.targetClientId f.protocol

/-! ## The order pipeline -/

section Pipeline

variable (env : Env) (reply : String → Handling Bool)

/-- A reply sent only under a condition; the handler goes on when it is not. -/
def replyIf (condition : Bool) (text : String) : Handling Bool :=
  if condition then reply text else return true

/-- Validation and its rejection reply. -/
def validateStage (root : Value) (s : Loop) : Handling (Loop × Bool) := do
  let (isValid, errorMessage) ←
    Program.ofExcept (validateOrderLimits env.json root s.errorMessage)
  let go ← replyIf reply (!isValid) errorMessage
  return ({ s with isValid, errorMessage }, go)

/-- The stock check and its rejection reply. -/
def stockStage (root : Value) (s : Loop) : Handling (Loop × Bool) := do
  let (productStock, errorMessage) ← checkProductStock env.json root s.errorMessage
  let go ← replyIf reply (!productStock) errorMessage
  return ({ s with productStock, errorMessage }, go)

/-- The transfer and its success reply. -/
def updateStage (root : Value) (s : Loop) : Handling (Loop × Bool) :=
  if s.productStock && s.isValid then do
    let result ← realTimeUpdate root
    let go ← replyIf reply (result > 0) "Successful order!"
    return (s, go)
  else return (s, true)

/-- The low stock check and its alert. -/
def lowStockStage (root : Value) (s : Loop) : Handling (Loop × Bool) := do
  let (lowStock, alertOut) ← checkLowStockAlert env.json root s.alertOut
  let go ← replyIf reply lowStock alertOut
  return ({ s with lowStock, alertOut }, go)

/-- The restock and its alert. -/
def reStockStage (root : Value) (s : Loop) : Handling (Loop × Bool) := do
  let (reStocked, alertOut) ← reStock env.json root s.alertOut
  let go ← replyIf reply reStocked alertOut
  return ({ s with reStocked, alertOut }, go)

/-- One stage after another, until a stage does not go on. -/
def stages : List (Loop → Handling (Loop × Bool)) → Loop → Handling (Loop × Bool)
  | [], s => return (s, true)
  | stage :: rest, s => do
    let (s, go) ← stage s
    if go then stages rest s else return (s, false)

section

variable {R : (o : Server.Op) → Server.Reply o → Prop}
  {G : List (Answered Server) → Server.Op → Prop}
  {stage : Loop → Handling (Loop × Bool)} {l : List (Loop → Handling (Loop × Bool))}
  {s : Loop} {h : List (Answered Server)}

/-- The stages after the first start from what it left, if it goes on. -/
theorem stages_meets {P Q : List (Answered Server) → Loop × Bool → Prop}
    (hstage : (stage s).Meets R G P h)
    (hgo : ∀ h' s', P h' (s', true) → (stages l s').Meets R G Q h')
    (hstop : ∀ h' s', P h' (s', false) → Q h' (s', false)) :
    (stages (stage :: l) s).Meets R G Q h := by
  refine Program.Meets.bind hstage fun h' r hr => ?_
  obtain ⟨s', go⟩ := r
  cases go with
  | true => exact hgo h' s' hr
  | false => exact hstop h' s' hr

/-- What each stage keeps, the stages keep. -/
theorem stages_keep {P : List (Answered Server) → Prop}
    (hl : ∀ stage ∈ l, ∀ s h, P h → (stage s).Meets R G (fun h' _ => P h') h) (hh : P h) :
    (stages l s).Meets R G (fun h' _ => P h') h := by
  induction l generalizing s h with
  | nil => exact hh
  | cons stage l ih =>
    refine stages_meets (hl stage List.mem_cons_self s h hh) (fun h' s' hh' => ?_)
      fun _ _ hh' => hh'
    exact ih (fun stage hin => hl stage (List.mem_cons_of_mem _ hin)) hh'

/-- The stages ask for what each of them does. -/
theorem stages_only {G : Server.Op → Prop} (hl : ∀ stage ∈ l, ∀ s, (stage s).Only G) (s : Loop) :
    (stages l s).Only G := by
  induction l generalizing s with
  | nil => trivial
  | cons stage l ih =>
    refine (hl stage List.mem_cons_self s).bind fun r => ?_
    obtain ⟨s', go⟩ := r
    cases go with
    | true => exact ih (fun stage hin => hl stage (List.mem_cons_of_mem _ hin)) s'
    | false => trivial

end

/-- What a handler does with a parsed order. -/
def orderStages (root : Value) : Loop → Handling (Loop × Bool) :=
  stages [validateStage env reply root, stockStage env reply root, updateStage reply root,
    lowStockStage env reply root, reStockStage env reply root]

/-- The branch of a handler on a message that begins with a brace: it does not
go on to `processMessage` when the message does not parse or a reply that
matters fails. -/
def handleOrder (buffer : String) (s : Loop) : Handling (Loop × Bool) := do
  let stored ← ask (.storeOrder buffer)
  Program.ofExcept stored
  match ← Program.ofExcept (env.json.parse buffer) with
  | none => return (s, false)
  | some root => orderStages env reply root s

/-- `buffer[0] == '{'` -/
def beginsWithBrace (buffer : String) : Bool := buffer.toList.head? = some '{'

/-- The first branch of an iteration. -/
def orderBranch (buffer : String) (s : Loop) : Handling (Loop × Bool) :=
  if beginsWithBrace buffer then handleOrder env reply buffer s else return (s, true)

/-- The part of an iteration after the acknowledgement. -/
def handleMessage (protocol : String) (buffer : String) (s : Loop) : Handling Loop := do
  let (s, go) ← orderBranch env reply buffer s
  if go && s.isValid && s.productStock then do
    processMessage env.json buffer protocol s.clientId
    return s
  else return s

end Pipeline

/-! ## The two loops -/

/-- A reply of the UDP handler: it goes on whether or not the send succeeds. -/
def udpReply (cliAddr : SockAddr) (text : String) : Handling Bool := do
  let _ ← ask (.sendto cliAddr text)
  return true

/-- A reply of a TCP handler: it goes on only when the write succeeds. -/
def tcpReply (clientSockfd : Int) (text : String) : Handling Bool :=
  ask (.write clientSockfd text)

/-- One iteration of `Server::handleUdpClients` on a datagram from `cliAddr`. -/
def handleUdpClients (env : Env) (cliAddr : SockAddr) (buffer : String) (s : Loop) :
    Handling Loop := do
  let clientPid := atoi buffer
  let registered ← ask (.udpRegistered clientPid)
  if !registered && clientPid ≠ 0 then do
    let clientId ← ask (.registerClient clientPid "UDP" cliAddr 0)
    return { s with clientId }
  else do
    let _ ← udpReply cliAddr "UDP Server received your message."
    handleMessage env (udpReply cliAddr) "UDP" buffer s

/-- One iteration of the loop of `Server::handleTcpClient` on a read. -/
def handleTcpClient (env : Env) (clientSockfd : Int) (buffer : String) (s : Loop) :
    Handling Loop := do
  let written ← tcpReply clientSockfd "TCP Server received your message."
  if written then handleMessage env (tcpReply clientSockfd) "TCP" buffer s
  else return s

end LogisticService
