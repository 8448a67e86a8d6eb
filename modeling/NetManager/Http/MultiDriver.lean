import Mathlib.Data.List.AList

/-!
# The driver of transfers

`EpollMultiDriver` takes requests from the incoming queue, hands them to libcurl and
tells their owners when libcurl is done with them; `HttpHandoverHandler` keeps requests
back while the device changes its network and sends requests again. What libcurl and
the handover manager answer is an input of each event. Calls of the owners are logged.
-/

namespace NetManager.Http

/-- `CURL *`; 0 is the null pointer. -/
abbrev CurlHandle := Nat

abbrev CurlCode := Nat

namespace CurlCode

/-- `CURLE_OK`. -/
def ok : CurlCode := 0
/-- `CURLE_COULDNT_RESOLVE_HOST`. -/
def couldntResolveHost : CurlCode := 6
/-- `CURLE_COULDNT_CONNECT`. -/
def couldntConnect : CurlCode := 7
/-- `CURLE_SSL_CONNECT_ERROR`. -/
def sslConnectError : CurlCode := 35
/-- `CURLE_TOO_MANY_REDIRECTS`. -/
def tooManyRedirects : CurlCode := 47
/-- `CURLE_SEND_ERROR`. -/
def sendError : CurlCode := 55
/-- `CURLE_RECV_ERROR`. -/
def recvError : CurlCode := 56
/-- `CURLE_QUIC_CONNECT_ERROR`. -/
def quicConnectError : CurlCode := 96

variable (result : CurlCode)

def isIoError : Bool := result = sendError || result = recvError

def isConnectError : Bool :=
  result = couldntResolveHost || result = couldntConnect ||
    result = sslConnectError || result = quicConnectError

def isNetworkErrorTypeCorrect : Bool := result.isIoError || result.isConnectError

end CurlCode

/-- `RequestInfo`; the number stands for the object. -/
structure RequestInfo where
  id : Nat
  easyHandle : CurlHandle
  deriving DecidableEq

abbrev OngoingRequests := AList fun _ : CurlHandle => Option RequestInfo

/-! ## The handover handler -/

/-- `HttpHandoverStackInfo`, as `CheckRequestCanRetrans` reads it. -/
structure HttpHandoverStackInfo where
  method : String := "init"
  isInStream : Bool := false

/-- What libcurl and the owner say of a request. -/
structure Probe where
  /-- `CURLINFO_STARTTRANSFER_TIME_T` and `CURLINFO_PRETRANSFER_TIME_T`, unless a call
  fails. -/
  times : Option (Int × Int) := none
  /-- `handoverInfoCallback`. -/
  stackInfo : HttpHandoverStackInfo := {}

namespace HandoverStatus

def init : Int32 := 0
def start : Int32 := 1
/-- `END`. -/
def ended : Int32 := 3
def fatal : Int32 := 4
def timeout : Int32 := 5

end HandoverStatus

structure HttpHandoverHandler where
  handoverQueue : List RequestInfo := []
  requestEndtime : AList (fun _ : Option RequestInfo => Int) := ∅
  endTime : Int := 0
  timeoutTime : Int := 0
  retrans : Int := 0
  status : Int32 := HandoverStatus.init

/-- `IsRequestRead`: -1, 0 or 1. -/
def isRequestRead : Option (Int × Int) → Int
  | none => -1
  | some (recvtime, sendtime) => if recvtime = 0 ∨ sendtime = recvtime then 0 else 1

def checkRequestCanRetrans (request : Option RequestInfo) (probe : RequestInfo → Probe)
    (result : CurlCode) : Bool :=
  match request with
  | none => false
  | some request =>
    match (probe request).times with
    | none => false
    | some (recvtime, sendtime) =>
      let readFlag := isRequestRead (some (recvtime, sendtime))
      let stackInfo := (probe request).stackInfo
      let isSafe := stackInfo.method = "GET" || stackInfo.method = "HEAD" ||
        stackInfo.method = "OPTIONS" || stackInfo.method = "TRACE"
      result.isConnectError || sendtime = 0 || (isSafe && (!stackInfo.isInStream || readFlag = 0))

/-- `RetransRequest`; `added` is what `curl_multi_add_handle` answers. -/
def retransRequest (ongoingRequests : OngoingRequests) (added : Bool) (request : RequestInfo) :
    Bool × OngoingRequests :=
  if !added then (false, ongoingRequests)
  else (true, ongoingRequests.insert request.easyHandle (some request))

/-- A request leaves the driver. -/
inductive OwnerCall
  /-- `doneCallback`, with the result of the message. -/
  | done (request : RequestInfo) (result : CurlCode)
  /-- The request is handed to a redirection interceptor. -/
  | redirect (request : RequestInfo)

/-- What `UndoneRequestHandle` changes. -/
structure Undone where
  ongoingRequests : OngoingRequests
  retrans : Int
  calls : List OwnerCall

variable (probe : RequestInfo → Probe) (added : RequestInfo → Bool)

/-- One round of `UndoneRequestHandle`. -/
def undoneRequest (undone : Undone) (entry : Sigma fun _ : CurlHandle => Option RequestInfo) :
    Undone :=
  match entry.2 with
  | none => undone
  | some request =>
    if checkRequestCanRetrans (some request) probe CurlCode.ok then
      match retransRequest undone.ongoingRequests (added request) request with
      | (true, ongoingRequests) =>
        { undone with ongoingRequests := ongoingRequests, retrans := undone.retrans + 1 }
      | (false, ongoingRequests) =>
        { undone with
          ongoingRequests := ongoingRequests.erase entry.1
          calls := undone.calls ++ [.done request CurlCode.sendError] }
    else undone

def undoneRequestHandle (ongoingRequests : OngoingRequests) (retrans : Int) : Undone :=
  ongoingRequests.entries.foldl (undoneRequest probe added) ⟨ongoingRequests, retrans, []⟩

namespace HttpHandoverHandler

variable (handler : HttpHandoverHandler)

def handoverQuery (status : Int32) : HttpHandoverHandler := { handler with status := status }

/-- `TryFlowControl`; `status` is what the manager answers. -/
def tryFlowControl (status : Int32) (requestInfo : RequestInfo) : Bool × HttpHandoverHandler :=
  let handler := handler.handoverQuery status
  if handler.status = HandoverStatus.fatal then (false, handler)
  else if handler.status = HandoverStatus.start then
    (true, { handler with handoverQueue := handler.handoverQueue.insert requestInfo })
  else (false, handler)

variable (ongoingRequests : OngoingRequests)

/-- The first loop of `HandoverRequestCallback`. -/
def markOngoing : HttpHandoverHandler :=
  { handler with
    requestEndtime := ongoingRequests.entries.foldl
      (fun requestEndtime request =>
        if request.2 ∈ requestEndtime then requestEndtime
        else requestEndtime.insert request.2 handler.endTime)
      handler.requestEndtime }

/-- `HandoverRequestCallback`: the handler, the ongoing requests and the calls of the
owners. `undoneAdded` and `added` are what `curl_multi_add_handle` answers for
undone requests and for requests that were kept back. -/
def handoverRequestCallback
    (status : Int32) (probe : RequestInfo → Probe) (undoneAdded added : RequestInfo → Bool) :
    HttpHandoverHandler × OngoingRequests × List OwnerCall :=
  let handler := handler.handoverQuery status
  if handler.status = HandoverStatus.start then
    (handler.markOngoing ongoingRequests, ongoingRequests, [])
  else if handler.status = HandoverStatus.ended ∨ handler.status = HandoverStatus.timeout then
    let handler :=
      if handler.status = HandoverStatus.ended then { handler with endTime := handler.endTime + 1 }
      else { handler with timeoutTime := handler.timeoutTime + 1 }
    let undone := undoneRequestHandle probe undoneAdded ongoingRequests handler.retrans
    let ongoingRequests := handler.handoverQueue.foldl
      (fun ongoingRequests request => (retransRequest ongoingRequests (added request) request).2)
      undone.ongoingRequests
    ({ handler with handoverQueue := [], retrans := 0 }, ongoingRequests, undone.calls)
  else (handler, ongoingRequests, [])

def handoverTimeoutCallback (status : Int32) : HttpHandoverHandler := handler.handoverQuery status

end HttpHandoverHandler

/-- `CURLMsg`, and what is answered while it is handled. -/
structure CurlMessage where
  /-- `msg` is `CURLMSG_DONE`. -/
  isDone : Bool := true
  easyHandle : CurlHandle
  result : CurlCode := CurlCode.ok
  /-- The request. -/
  probe : Probe := {}
  /-- The status of the handover manager. -/
  status : Int32 := HandoverStatus.init
  /-- `curl_multi_add_handle`. -/
  added : Bool := true
  responseCode : Int := 200
  /-- `CURLINFO_REDIRECT_URL`. -/
  location : Option String := none
  /-- `IsRedirectionInterceptor` of the request's interceptor, if it has one. -/
  interceptor : Option Bool := none
  isReachRedirectLimit : Bool := false

namespace HttpHandoverHandler

def processRequestNetError (handler : HttpHandoverHandler) (ongoingRequests : OngoingRequests)
    (requestInfo : RequestInfo) (message : CurlMessage) :
    Bool × HttpHandoverHandler × OngoingRequests :=
  match handler.requestEndtime.lookup (some requestInfo) with
  | none => (false, handler, ongoingRequests)
  | some endTime =>
    let handler := { handler with
      requestEndtime := handler.requestEndtime.erase (some requestInfo) }
    if !message.result.isNetworkErrorTypeCorrect then (false, handler, ongoingRequests)
    else if !checkRequestCanRetrans (some requestInfo) (fun _ => message.probe)
        message.result then
      (false, handler, ongoingRequests)
    else
      match handler.tryFlowControl message.status requestInfo with
      | (true, handler) => (true, { handler with retrans := handler.retrans + 1 }, ongoingRequests)
      | (false, handler) =>
        if endTime = handler.endTime - 1 then
          let result := retransRequest ongoingRequests message.added requestInfo
          (result.1, handler, result.2)
        else (false, handler, ongoingRequests)

end HttpHandoverHandler

/-! ## The driver -/

/-- `EpollMultiDriver`, with the calls of the owners. -/
structure EpollMultiDriver where
  incomingQueue : List RequestInfo := []
  ongoingRequests : OngoingRequests := ∅
  netHandoverHandler : Option HttpHandoverHandler := none
  /-- The requests taken from the incoming queue. -/
  taken : List RequestInfo := []
  calls : List OwnerCall := []

namespace EpollMultiDriver

variable (driver : EpollMultiDriver)

/-- Put a request to the ongoing ones; if libcurl refuses it, it is deleted. -/
def addIncoming (added : Bool) (request : RequestInfo) : EpollMultiDriver :=
  let ongoingRequests := driver.ongoingRequests.insert request.easyHandle (some request)
  if !added then { driver with ongoingRequests := ongoingRequests.erase request.easyHandle }
  else { driver with ongoingRequests := ongoingRequests }

variable (status : RequestInfo → Int32) (added : RequestInfo → Bool)

/-- One round of `IncomingRequestCallback`. -/
def incomingRequest (driver : EpollMultiDriver) (request : RequestInfo) : EpollMultiDriver :=
  match driver.netHandoverHandler with
  | none => driver.addIncoming (added request) request
  | some handler =>
    match handler.tryFlowControl (status request) request with
    | (true, handler) => { driver with netHandoverHandler := some handler }
    | (false, handler) =>
      { driver with netHandoverHandler := some handler }.addIncoming (added request) request

def incomingRequestCallback : EpollMultiDriver :=
  let requestsToAdd := driver.incomingQueue
  requestsToAdd.foldl (incomingRequest status added)
    { driver with incomingQueue := [], taken := driver.taken ++ requestsToAdd }

def handleCompletion (result : CurlCode) (requestInfo : RequestInfo) : EpollMultiDriver :=
  { driver with calls := driver.calls ++ [.done requestInfo result] }

/-- The end of `HandleCurlDoneMessage`: a redirection goes to the interceptor. -/
def finishRequest (message : CurlMessage) (requestInfo : RequestInfo) : EpollMultiDriver :=
  if 300 ≤ message.responseCode ∧ message.responseCode < 400 ∧ message.location.isSome ∧
      message.interceptor = some true then
    if !message.isReachRedirectLimit then
      { driver with calls := driver.calls ++ [.redirect requestInfo] }
    else driver.handleCompletion CurlCode.tooManyRedirects requestInfo
  else driver.handleCompletion message.result requestInfo

/-- `HandleCurlDoneMessage`. The look up puts a null pointer for a handle that is not
there. -/
def handleCurlDoneMessage (message : CurlMessage) : EpollMultiDriver :=
  let easyHandle := message.easyHandle
  match driver.ongoingRequests.lookup easyHandle with
  | none => { driver with ongoingRequests := driver.ongoingRequests.insert easyHandle none }
  | some none => driver
  | some (some requestInfo) =>
    if easyHandle = 0 then driver
    else
      let driver := { driver with
        ongoingRequests := driver.ongoingRequests.erase easyHandle }
      match driver.netHandoverHandler with
      | none => driver.finishRequest message requestInfo
      | some handler =>
        match handler.processRequestNetError driver.ongoingRequests requestInfo message with
        | (processed, handler, ongoingRequests) =>
          let driver := { driver with
            netHandoverHandler := some handler
            ongoingRequests := ongoingRequests }
          if processed then driver else driver.finishRequest message requestInfo

def checkMultiInfo (messages : List CurlMessage) : EpollMultiDriver :=
  messages.foldl
    (fun driver message => if message.isDone then driver.handleCurlDoneMessage message else driver)
    driver

/-- What happens to the driver. -/
inductive Event
  /-- A request is pushed to the incoming queue. -/
  | push (request : RequestInfo)
  /-- The event of the incoming queue. -/
  | incoming (status : RequestInfo → Int32) (added : RequestInfo → Bool)
  /-- A timer or socket event, after which libcurl has messages. -/
  | multiInfo (messages : List CurlMessage)
  /-- The event of the handover handler. -/
  | handover (status : Int32) (probe : RequestInfo → Probe) (undoneAdded added : RequestInfo → Bool)
  /-- The timeout event of the handover handler. -/
  | handoverTimeout (status : Int32)

/-- One event. -/
def step : Event → EpollMultiDriver
  | .push request => { driver with incomingQueue := driver.incomingQueue ++ [request] }
  | .incoming status added => driver.incomingRequestCallback status added
  | .multiInfo messages => driver.checkMultiInfo messages
  | .handover status probe undoneAdded added =>
    match driver.netHandoverHandler with
    | none => driver
    | some handler =>
      match handler.handoverRequestCallback driver.ongoingRequests status probe undoneAdded
        added with
      | (handler, ongoingRequests, calls) =>
        { driver with
          netHandoverHandler := some handler
          ongoingRequests := ongoingRequests
          calls := driver.calls ++ calls }
  | .handoverTimeout status =>
    { driver with
      netHandoverHandler := driver.netHandoverHandler.map (·.handoverTimeoutCallback status) }

end EpollMultiDriver

end NetManager.Http
