/-
**The state of a worker and the operations on it** (`network_interface.cpp`,
`websocket_handler.cpp`).

A worker is one process: a `Network_Interface` with its handlers.  The handlers call back into the
singleton, so that the methods of both classes are functions on the one state `NetworkInterface`; a
method of `Websocket_Handler` takes the descriptor its handler is mapped under.

Besides the members of the source the state holds

* `interest`, the interest list the kernel keeps for the epoll descriptor;
* `nextConn` and the field `conn` of a handler, which number the connections in the order of
  their `accept`: descriptor numbers are reused, connection numbers are not;
* `trace`, the observable operations in the order in which they happen.

The last two are history: no function reads them.  `ws_clients_` is the list of its elements in
iteration order, which the loop lets the environment permute at any time.  `epoll_ctl` and `malloc`
are assumed to succeed.

Main definitions:

* `WebsocketHandler`, `Obs`, `NetworkInterface` — the state;
* `NetworkInterface.appendOutgoing`, `NetworkInterface.broadcastWsBinary` — output;
* `NetworkInterface.handleOneFrame`, `NetworkInterface.driveIoUpgrade`,
  `NetworkInterface.driveIoFrame` — input;
* `NetworkInterface.queueClose`, `NetworkInterface.processCloseQueue`,
  `NetworkInterface.ctlEvent` — the life of a connection.
-/

import WebSocketDemo.Handshake
import WebSocketDemo.WebsocketRequest
import WebSocketDemo.WebsocketRespond
import Mathlib.Data.List.Destutter
import Mathlib.Data.List.Sort

set_option relaxedAutoImplicit false
set_option autoImplicit false

namespace WebSocketDemo

/-- A file descriptor, `int` in the source. -/
abbrev Fd := ℤ

/-! ### Constants -/

/-- `WS_MAX_HANDSHAKE_BYTES`. -/
def wsMaxHandshakeBytes : ℕ := 64 * 1024

/-- `WS_MAX_READ_BUFFER`. -/
def wsMaxReadBuffer : ℕ := 1024 * 1024 + 16 * 1024

/-- `WS_MAX_WRITE_BUFFER`. -/
def wsMaxWriteBuffer : ℕ := 4 * 1024 * 1024

/-- `READ_CHUNK`. -/
def readChunk : ℕ := 16384

/-- The event bits of `<sys/epoll.h>`. -/
def epollIn : UInt32 := 0x001
def epollOut : UInt32 := 0x004
def epollErr : UInt32 := 0x008
def epollHup : UInt32 := 0x010

/-- `WEBSOCKET_STATUS`. -/
inductive WebsocketStatus
  | unconnect
  | handsharked
  deriving DecidableEq, Repr

/-- `WEBSOCKET_FIN_MSG_END`. -/
def websocketFinMsgEnd : UInt8 := 1

/-- The opcodes of `WEBSOCKET_OPCODE_TYPE` that the server acts on. -/
def websocketTextData : UInt8 := 0x1
def websocketConnectClose : UInt8 := 0x8
def websocketPingPack : UInt8 := 0x9
def websocketPangPack : UInt8 := 0xA

/-- `WEBSOCKET_NEED_NOT_MASK`. -/
def websocketNeedNotMask : UInt8 := 0

/-! ### State -/

/-- What `handle_one_frame` sees of a decoded frame, and the FIN bit, which it ignores. -/
structure Frame where
  fin : UInt8
  opcode : UInt8
  payload : Bytes
  deriving DecidableEq, Repr

/-- The frame held by a request. -/
def WebsocketRequest.frame (r : WebsocketRequest) : Frame := ⟨r.fin, r.opcode, r.payload⟩

/-- The members of `Websocket_Handler`, and the number of its connection. -/
structure WebsocketHandler where
  conn : ℕ
  readBuf : Bytes
  writeBuf : Bytes
  status : WebsocketStatus
  headerMap : HeaderMap
  fd : Fd
  request : WebsocketRequest

namespace WebsocketHandler

/-- The constructor `Websocket_Handler(fd)`. -/
def new (conn : ℕ) (fd : Fd) : WebsocketHandler where
  conn := conn
  readBuf := []
  writeBuf := []
  status := .unconnect
  headerMap := fun _ => none
  fd := fd
  request := WebsocketRequest.new

/-- `append_read`. -/
def appendRead (h : WebsocketHandler) (data : Bytes) : Bool × WebsocketHandler :=
  if data.length = 0 then (true, h)
  else if h.readBuf.length + data.length > wsMaxReadBuffer then (false, h)
  else (true, { h with readBuf := h.readBuf ++ data })

/-- `write_pending`. -/
def writePending (h : WebsocketHandler) : Bool := decide (h.writeBuf ≠ [])

end WebsocketHandler

/-- The observable operations of a worker.  `c` is the connection concerned. -/
inductive Obs
  /-- `ctl_event(fd, true)`. -/
  | accepted (c : ℕ) (fd : Fd)
  /-- `ctl_event(fd, false)`. -/
  | closed (c : ℕ) (fd : Fd)
  /-- An `EPOLLIN` event is dispatched to the connection. -/
  | readable (c : ℕ)
  /-- `append_read` takes what one `read` returned. -/
  | received (c : ℕ) (data : Bytes)
  /-- `append_read` returns `false`. -/
  | readRefused (c : ℕ) (data : Bytes)
  /-- `read` returns 0. -/
  | eof (c : ℕ)
  /-- `drive_io` gives up on the handshake. -/
  | rejected (c : ℕ)
  /-- The status becomes `WEBSOCKET_HANDSHARKED`, with the headers read and the bytes behind them.
  -/
  | upgraded (c : ℕ) (headerMap : HeaderMap) (rest : Bytes)
  /-- `register_ws_client`. -/
  | registered (c : ℕ)
  /-- `handle_one_frame` is called on a frame of the connection. -/
  | handled (c : ℕ) (frame : Frame)
  /-- `try_consume_frame` returns `WS_PARSE_ERROR`. -/
  | parseError (c : ℕ)
  /-- `append_outgoing`: `own` is its argument `update_epoll`, true for `queue_send` and false for a
  broadcast; `taken` says whether the bytes were appended or refused. -/
  | offered (c : ℕ) (data : Bytes) (own : Bool) (taken : Bool)
  /-- `send` accepts bytes. -/
  | sent (c : ℕ) (data : Bytes)

/-- The members of `Network_Interface`, the kernel's interest list, and the history. -/
structure NetworkInterface where
  listenfd : Fd
  websocketHandlerMap : Fd → Option WebsocketHandler
  wsClients : List Fd
  pendingCloses : List Fd
  interest : Fd → Option UInt32
  nextConn : ℕ
  trace : List Obs

namespace NetworkInterface

/-- Record an operation. -/
def emit (w : NetworkInterface) (o : Obs) : NetworkInterface := { w with trace := w.trace ++ [o] }

/-- Assign through the pointer `websocket_handler_map_[fd]`. -/
def setHandler (w : NetworkInterface) (fd : Fd) (h : WebsocketHandler) : NetworkInterface :=
  { w with websocketHandlerMap := Function.update w.websocketHandlerMap fd (some h) }

/-! ### Registry and interest list -/

/-- `is_listen_fd`. -/
def isListenFd (w : NetworkInterface) (fd : Fd) : Bool := decide (fd = w.listenfd)

/-- `mod_events`: `EPOLL_CTL_MOD` on a registered descriptor. -/
def modEvents (w : NetworkInterface) (fd : Fd) (events : UInt32) : NetworkInterface :=
  { w with interest := Function.update w.interest fd ((w.interest fd).map fun _ => events) }

/-- `update_handler_events`. -/
def updateHandlerEvents (w : NetworkInterface) (fd : Fd) : NetworkInterface :=
  if fd = w.listenfd then w
  else
    match w.websocketHandlerMap fd with
    | none => w
    | some h => w.modEvents fd (if h.writePending then epollIn ||| epollOut else epollIn)

/-- `register_ws_client`. -/
def registerWsClient (w : NetworkInterface) (fd : Fd) : NetworkInterface :=
  if fd = w.listenfd ∨ fd < 0 then w
  else { w with wsClients := w.wsClients.insert fd }

/-- `unregister_ws_client`. -/
def unregisterWsClient (w : NetworkInterface) (fd : Fd) : NetworkInterface :=
  { w with wsClients := w.wsClients.erase fd }

/-- `queue_close`. -/
def queueClose (w : NetworkInterface) (fd : Fd) : NetworkInterface :=
  if fd < 0 then w else { w with pendingCloses := w.pendingCloses ++ [fd] }

/-! ### Output -/

/-- `Websocket_Handler::append_outgoing`. -/
def appendOutgoing (w : NetworkInterface) (fd : Fd) (data : Bytes) (updateEpoll : Bool) :
    NetworkInterface :=
  match w.websocketHandlerMap fd with
  | none => w
  | some h =>
      if data.length = 0 then w
      else if h.writeBuf.length + data.length > wsMaxWriteBuffer then
        (w.emit (.offered h.conn data updateEpoll false)).queueClose h.fd
      else
        let w := w.setHandler fd { h with writeBuf := h.writeBuf ++ data }
        let w := w.emit (.offered h.conn data updateEpoll true)
        if updateEpoll then w.updateHandlerEvents h.fd else w

/-- `Websocket_Handler::queue_send`. -/
def queueSend (w : NetworkInterface) (fd : Fd) (data : Bytes) : NetworkInterface :=
  w.appendOutgoing fd data true

/-- `write_pending` of the handler mapped under `fd`. -/
def writePendingAt (w : NetworkInterface) (fd : Fd) : Bool :=
  match w.websocketHandlerMap fd with
  | none => false
  | some h => h.writePending

/-- The first loop of `broadcast_ws_binary`: append to every client but `exceptFd`, collecting the
descriptors whose buffer was empty and is not any more. -/
def broadcastAppend (exceptFd : Fd) (data : Bytes) :
    List Fd → NetworkInterface × List Fd → NetworkInterface × List Fd
  | [], acc => acc
  | cfd :: rest, (w, toRefresh) =>
      if cfd = exceptFd then broadcastAppend exceptFd data rest (w, toRefresh)
      else
        match w.websocketHandlerMap cfd with
        | none => broadcastAppend exceptFd data rest (w, toRefresh)
        | some h =>
            let wasEmpty := !h.writePending
            let w := w.appendOutgoing cfd data false
            let toRefresh :=
              if wasEmpty && w.writePendingAt cfd then toRefresh ++ [cfd] else toRefresh
            broadcastAppend exceptFd data rest (w, toRefresh)

/-- `broadcast_ws_binary`. -/
def broadcastWsBinary (w : NetworkInterface) (exceptFd : Fd) (data : Bytes) : NetworkInterface :=
  if data.length = 0 then w
  else
    let (w, toRefresh) := broadcastAppend exceptFd data w.wsClients (w, [])
    toRefresh.foldl updateHandlerEvents w

/-! ### Input -/

/-- `Websocket_Handler::handle_one_frame`. -/
def handleOneFrame (w : NetworkInterface) (fd : Fd) : NetworkInterface :=
  match w.websocketHandlerMap fd with
  | none => w
  | some h =>
      let requestMsg := h.request.getMsg
      let requestMsgLen := h.request.getMsgLength.toNat
      let msgOpcode := h.request.getMsgOpcode
      if msgOpcode = websocketTextData then
        match WebsocketRespond.packData (some requestMsg) requestMsgLen websocketFinMsgEnd
          websocketTextData websocketNeedNotMask with
        | none => w
        | some out => (w.queueSend fd out).broadcastWsBinary h.fd out
      else if msgOpcode = websocketConnectClose then
        w.queueClose h.fd
      else if msgOpcode = websocketPingPack then
        match WebsocketRespond.packData (some requestMsg) requestMsgLen websocketFinMsgEnd
          websocketPangPack websocketNeedNotMask with
        | none => w
        | some pong => w.queueSend fd pong
      else w

/-- `"\r\n\r\n"`. -/
def crlfCrlf : Bytes := [cr, lf, cr, lf]

/-- The first half of `Websocket_Handler::drive_io`, the upgrade of an unconnected handler.  The
flag says whether control goes on to the frame loop. -/
def driveIoUpgrade (w : NetworkInterface) (fd : Fd) : NetworkInterface × Bool :=
  match w.websocketHandlerMap fd with
  | none => (w, false)
  | some h =>
      if h.status ≠ .unconnect then (w, true)
      else if h.readBuf.length > wsMaxHandshakeBytes then
        ((w.emit (.rejected h.conn)).queueClose h.fd, false)
      else
        match Text.find crlfCrlf h.readBuf with
        | none => (w, false)
        | some pos =>
            let headers := h.readBuf.take (pos + 4)
            let h := { h with readBuf := h.readBuf.drop (pos + 4) }
            let (ret, headerMap) := fetchHttpInfo h.headerMap headers
            let h := { h with headerMap := headerMap }
            if ret ≠ 0 then
              (((w.setHandler fd h).emit (.rejected h.conn)).queueClose h.fd, false)
            else
              let (headerMap', response) := parseStr h.headerMap
              let h := { h with status := .handsharked, headerMap := headerMap' }
              let w := (w.setHandler fd h).emit (.upgraded h.conn headerMap h.readBuf)
              let w := w.queueSend fd response
              if w.isListenFd h.fd then (w, true)
              else ((w.registerWsClient h.fd).emit (.registered h.conn), true)

/-- `request_->reset()`. -/
def resetRequest (w : NetworkInterface) (fd : Fd) : NetworkInterface :=
  match w.websocketHandlerMap fd with
  | none => w
  | some h => w.setHandler fd { h with request := h.request.reset }

/-- One iteration of the frame loop of `Websocket_Handler::drive_io`.  The flag says whether the
loop goes on. -/
def driveIoFrame (w : NetworkInterface) (fd : Fd) : NetworkInterface × Bool :=
  match w.websocketHandlerMap fd with
  | none => (w, false)
  | some h =>
      if h.status ≠ .handsharked then (w, false)
      else
        match h.request.tryConsumeFrame h.readBuf with
        | (.needMore, request, readBuf) =>
            (w.setHandler fd { h with request := request, readBuf := readBuf }, false)
        | (.error, request, readBuf) =>
            let w := w.setHandler fd { h with request := request, readBuf := readBuf }
            ((w.emit (.parseError h.conn)).queueClose h.fd, false)
        | (.ok, request, readBuf) =>
            let w := w.setHandler fd { h with request := request, readBuf := readBuf }
            let w := w.emit (.handled h.conn request.frame)
            ((w.handleOneFrame fd).resetRequest fd, true)

/-! ### The life of a connection -/

/-- `ctl_event`. -/
def ctlEvent (w : NetworkInterface) (fd : Fd) (flag : Bool) : NetworkInterface :=
  if flag then
    { w with
      interest := Function.update w.interest fd (some epollIn)
      websocketHandlerMap :=
        Function.update w.websocketHandlerMap fd (some (WebsocketHandler.new w.nextConn fd))
      nextConn := w.nextConn + 1
      trace := w.trace ++ [.accepted w.nextConn fd] }
  else
    match w.websocketHandlerMap fd with
    | none => w
    | some h =>
        let w := w.unregisterWsClient fd
        let w := { w with interest := Function.update w.interest fd none }
        let w := w.emit (.closed h.conn fd)
        -- the destructor of the handler
        let w := w.unregisterWsClient h.fd
        { w with websocketHandlerMap := Function.update w.websocketHandlerMap fd none }

/-- `process_close_queue`: `std::sort`, `std::unique`, and the loop. -/
def processCloseQueue (w : NetworkInterface) : NetworkInterface :=
  if w.pendingCloses = [] then w
  else
    let fds := (w.pendingCloses.insertionSort (· ≤ ·)).destutter (· ≠ ·)
    let w := fds.foldl (fun w fd => w.ctlEvent fd false) w
    { w with pendingCloses := [] }

/-- The state `init` leaves: the listener is mapped and watched. -/
def init (listenfd : Fd) : NetworkInterface :=
  ctlEvent
    { listenfd := listenfd
      websocketHandlerMap := fun _ => none
      wsClients := []
      pendingCloses := []
      interest := fun _ => none
      nextConn := 0
      trace := [] }
    listenfd true

end NetworkInterface

end WebSocketDemo
