import QuicProxy.Proxy.Http
import QuicProxy.Proxy.Router.Rule
import QuicProxy.Utils.PrefixedReadStream

namespace QuicProxy

/-! How the HTTP inbound reads a request (`handle_client` in
`src/proxy/inbound/http.rs`). -/

structure HttpHeader where
  name : String
  value : Bytes

structure HttpRequest where
  method : Option String
  path : Option String
  headers : List HttpHeader
  /-- The length of the header block. -/
  offset : Nat

/-- The libraries of the inbound: `Request::parse` of `httparse`, where `none` is
a partial request, and `BASE64_STANDARD.decode`. -/
structure HttpLib where
  parse : Bytes → Except String (Option HttpRequest)
  decode : String → Option Bytes

structure HttpUser where
  username : String
  password : String

structure StreamHandler where
  stream : PrefixedReadStream
  target : TargetAddr

/-- What `handle_client` returns, and what it has given to `write_all`. -/
structure HttpOutcome where
  result : Except String (Option StreamHandler)
  response : Bytes

namespace HttpRequest

/-- The first header with the name, as text. -/
def headerText (request : HttpRequest) (name : String) : Option String :=
  (request.headers.find? fun header => eqIgnoreAsciiCase (asBytes header.name) (asBytes name)).map
    fun header => (fromUtf8 header.value).getD ""

def authorized (lib : HttpLib) (users : List HttpUser) (request : HttpRequest) : Bool :=
  let creds := do
    let value ← request.headerText "Proxy-Authorization"
    let encoded ← Http.stripStart "Basic ".toList value.toList
    let decoded ← lib.decode (String.ofList (trim encoded))
    let creds ← fromUtf8 decoded
    splitOnce ':' creds.toList
  creds.any fun (username, password) => users.any fun user =>
    user.username == String.ofList username && user.password == String.ofList password

def isConnect (request : HttpRequest) : Bool := request.method.getD "" == "CONNECT"

def target (request : HttpRequest) : Except String TargetAddr :=
  let path := (request.path.getD "").toList
  if request.isConnect then Http.parseTarget path
  else if (Http.stripStart "http://".toList path).isSome ||
      (Http.stripStart "https://".toList path).isSome then
    Http.parseUrlTarget path
  else
    match request.headerText "Host" with
    | some host => Http.parseHostHeader host.toList
    | none => .error "No Host header or absolute URI"

end HttpRequest

def proxyAuthRequired : Bytes :=
  asBytes "HTTP/1.1 407 Proxy Authentication Required\r\n" ++
    asBytes "Proxy-Authenticate: Basic realm=\"Proxy\"\r\nContent-Length: 0\r\n\r\n"

def connectionEstablished : Bytes := asBytes "HTTP/1.1 200 Connection Established\r\n\r\n"

section Client

variable (lib : HttpLib) (users : Option (List HttpUser)) (write : Except String Unit)

/-- What `handle_client` does once the request is complete; `write` is the answer
of the socket to its `write_all`. -/
def serveRequest (request : HttpRequest) (buf : Bytes) (socket : List PollRead) : HttpOutcome :=
  if users.any fun users => !request.authorized lib users then
    match write with
    | .error error => ⟨.error error, proxyAuthRequired⟩
    | .ok () => ⟨.error "Authentication failed", proxyAuthRequired⟩
  else if request.isConnect then
    match request.target with
    | .error error => ⟨.error error, []⟩
    | .ok target =>
        match write with
        | .error error => ⟨.error error, connectionEstablished⟩
        | .ok () =>
            ⟨.ok (some ⟨⟨socket, buf.drop request.offset⟩, target⟩), connectionEstablished⟩
  else
    match request.target with
    | .error error => ⟨.error error, []⟩
    | .ok target => ⟨.ok (some ⟨⟨socket, buf⟩, target⟩), []⟩

/-- `handle_client`, with what it has read so far; `none` while it waits for more. -/
def handleClient : List PollRead → Bytes → Option HttpOutcome
  | [], _ => none
  | read :: socket, buf =>
      match read with
      | .pending => handleClient socket buf
      | .failed error => some ⟨.error error, []⟩
      | .ready [] => some ⟨.ok none, []⟩
      | .ready bytes =>
          match lib.parse (buf ++ bytes) with
          | .error error => some ⟨.error ("Invalid HTTP request: " ++ error), []⟩
          | .ok none => handleClient socket (buf ++ bytes)
          | .ok (some request) => some (serveRequest lib users write request (buf ++ bytes) socket)

end Client

/-- `head` is the complete header block of `request`: it is recognised as soon as
it is there, whatever follows. -/
structure HttpLib.Completes (lib : HttpLib) (head : Bytes) (request : HttpRequest) : Prop where
  complete : ∀ more, lib.parse (head ++ more) = .ok (some request)
  offset : request.offset = head.length
  nonempty : head ≠ []
  waits : ∀ start rest, head = start ++ rest → rest ≠ [] → lib.parse start = .ok none

/-- A request but for the value of one header, as bytes and as parsed. -/
structure HttpShape where
  method : Option String
  path : Option String
  front : List HttpHeader
  name : String
  back : List HttpHeader
  before : Bytes
  after : Bytes

namespace HttpShape

def head (shape : HttpShape) (value : Bytes) : Bytes := shape.before ++ value ++ shape.after

def request (shape : HttpShape) (value : Bytes) : HttpRequest where
  method := shape.method
  path := shape.path
  headers := shape.front ++ ⟨shape.name, value⟩ :: shape.back
  offset := (shape.head value).length

def IsAuth (shape : HttpShape) : Prop :=
  eqIgnoreAsciiCase (asBytes shape.name) (asBytes "Proxy-Authorization") = true

instance (shape : HttpShape) : Decidable shape.IsAuth := inferInstanceAs (Decidable (_ = true))

theorem head_inj (shape : HttpShape) {value other : Bytes}
    (same : shape.head value = shape.head other) : value = other :=
  List.append_cancel_left (List.append_cancel_right same)

end HttpShape

/-! Two requests of one user, once with a space and once with a tab before the
encoded credentials. -/

theorem completes_lookup {known : List (Bytes × HttpRequest)} {decode : String → Option Bytes}
    {head : Bytes} {request : HttpRequest} {length : Nat} (found : known.lookup head = some request)
    (lengths : ∀ entry ∈ known, entry.1.length = length) (size : head.length = length)
    (positive : 0 < length) (offset : request.offset = length) :
    HttpLib.Completes ⟨fun buf => .ok (known.lookup (buf.take length)), decode⟩ head request where
  complete more := by
    change Except.ok (known.lookup ((head ++ more).take length)) = _
    rw [← size, List.take_left, found]
  offset := offset.trans size.symm
  nonempty := List.ne_nil_of_length_pos (size.symm ▸ positive)
  waits start rest cut left := by
    change Except.ok (known.lookup (start.take length)) = _
    have shorter : start.length < length := by
      have := List.length_pos_iff.mpr left
      have total := congrArg List.length cut
      rw [List.length_append] at total
      omega
    rw [List.take_of_length_le (Nat.le_of_lt shorter)]
    refine congrArg Except.ok (List.lookup_eq_none_iff.mpr fun entry member => ?_)
    have := lengths entry member
    refine bne_iff_ne.mpr ?_
    rintro rfl
    omega

def exampleShape (method path : String) : HttpShape where
  method := some method
  path := some path
  front := []
  name := "Proxy-Authorization"
  back := []
  before := asBytes (method ++ " " ++ path ++ " HTTP/1.1\r\nProxy-Authorization: ")
  after := asBytes "\r\n\r\n"

def exampleConnect : HttpShape := exampleShape "CONNECT" "a:1"

def exampleGet : HttpShape := exampleShape "GET" "http://a/"

def exampleValues : Bytes × Bytes := (asBytes "Basic  dTpw", asBytes "Basic \tdTpw")

def exampleLib (shape : HttpShape) : HttpLib where
  parse buf := .ok ([(shape.head exampleValues.1, shape.request exampleValues.1),
    (shape.head exampleValues.2, shape.request exampleValues.2)].lookup
      (buf.take (shape.head exampleValues.1).length))
  decode text := if text = "dTpw" then some (asBytes "u:p") else none

theorem exampleLib_completes (shape : HttpShape) :
    (exampleLib shape).Completes (shape.head exampleValues.1) (shape.request exampleValues.1) ∧
      (exampleLib shape).Completes (shape.head exampleValues.2)
        (shape.request exampleValues.2) := by
  have same : (shape.head exampleValues.2).length = (shape.head exampleValues.1).length := by
    simp only [HttpShape.head, List.length_append]
    rfl
  have positive : 0 < (shape.head exampleValues.1).length := by
    have : 0 < exampleValues.1.length := by decide
    simp only [HttpShape.head, List.length_append]
    omega
  have lengths : ∀ entry ∈ [(shape.head exampleValues.1, shape.request exampleValues.1),
      (shape.head exampleValues.2, shape.request exampleValues.2)],
      entry.1.length = (shape.head exampleValues.1).length := by
    simp [same]
  have differ : (shape.head exampleValues.2 == shape.head exampleValues.1) = false := by
    refine beq_eq_false_iff_ne.mpr fun heads => ?_
    exact absurd (shape.head_inj heads) (by decide)
  refine ⟨completes_lookup List.lookup_cons_self lengths rfl positive rfl,
    completes_lookup ?_ lengths same positive same⟩
  rw [List.lookup_cons, differ]
  exact List.lookup_cons_self

def exampleUsers : List HttpUser := [⟨"u", "p"⟩]

section Cut

variable {lib : HttpLib} (users : Option (List HttpUser)) (write : Except String Unit)
  {head : Bytes} {request : HttpRequest}

/-- The reads up to the one that completes the header block; `early` came with it. -/
theorem handleClient_cut (completes : lib.Completes head request) {cut : List PollRead}
    (later : List PollRead) (steady : ∀ read ∈ cut, read.stops = false) {buf rest : Bytes}
    (short : buf.length < head.length) (whole : buf ++ contents cut = head ++ rest) :
    ∃ early left, early ++ contents left = rest ∧ (∀ read ∈ left, read.stops = false) ∧
      handleClient lib users write (cut ++ later) buf =
        some (serveRequest lib users write request (head ++ early) (left ++ later)) := by
  induction cut generalizing buf with
  | nil =>
      have := congrArg List.length whole
      rw [contents_nil, List.append_nil, List.length_append] at this
      omega
  | cons read cut ih =>
      obtain ⟨here, left⟩ := List.forall_mem_cons.mp steady
      match read with
      | .pending => exact ih left short whole
      | .failed error => cases here
      | .ready [] => cases here
      | .ready (byte :: bytes) =>
          have joined : (buf ++ byte :: bytes) ++ contents cut = head ++ rest :=
            (List.append_assoc ..).trans whole
          have found (early : Bytes) (same : buf ++ byte :: bytes = head ++ early)
              (tail : rest = early ++ contents cut) : ∃ early left,
              early ++ contents left = rest ∧ (∀ read ∈ left, read.stops = false) ∧
                handleClient lib users write (.ready (byte :: bytes) :: (cut ++ later)) buf =
                  some (serveRequest lib users write request (head ++ early) (left ++ later)) := by
            refine ⟨early, cut, tail.symm, left, ?_⟩
            simp only [handleClient, same, completes.complete]
          rcases List.append_eq_append_iff.mp joined with
            ⟨missing, same, tail⟩ | ⟨early, same, tail⟩
          · by_cases done : missing = []
            · subst done
              exact found [] (by rw [same, List.append_nil, List.append_nil]) tail.symm
            · have waits := completes.waits _ _ same done
              have shorter : (buf ++ byte :: bytes).length < head.length := by
                have := List.length_pos_iff.mpr done
                have size := congrArg List.length same
                rw [List.length_append] at size
                omega
              obtain ⟨early, rest, result⟩ := ih left shorter joined
              refine ⟨early, rest, ?_⟩
              simpa only [List.cons_append, handleClient, waits] using result
          · exact found early same tail

/-- The bytes that are left for the target. -/
def HttpRequest.forwarded (request : HttpRequest) (head rest : Bytes) : Bytes :=
  if request.isConnect then rest else head ++ rest

theorem serveRequest_delivers (completes : lib.Completes head request) (rest : Bytes) :
    ∃ answer : Except String TargetAddr, ∃ response, ∀ early socket, Unbroken socket →
      early ++ contents socket = rest → match answer with
        | .error error =>
            serveRequest lib users write request (head ++ early) socket = ⟨.error error, response⟩
        | .ok target => ∃ stream : PrefixedReadStream,
            serveRequest lib users write request (head ++ early) socket =
                ⟨.ok (some ⟨stream, target⟩), response⟩ ∧
              stream.Delivers (request.forwarded head rest) := by
  unfold serveRequest HttpRequest.forwarded
  split
  · cases write with
    | error error => exact ⟨.error error, _, fun _ _ _ _ => rfl⟩
    | ok _ => exact ⟨.error _, _, fun _ _ _ _ => rfl⟩
  · split
    · cases request.target with
      | error error => exact ⟨.error error, _, fun _ _ _ _ => rfl⟩
      | ok target =>
          cases write with
          | error error => exact ⟨.error error, _, fun _ _ _ _ => rfl⟩
          | ok _ =>
              refine ⟨.ok target, _, fun early socket unbroken whole => ⟨_, rfl, ?_⟩⟩
              have given : (head ++ early).drop request.offset = early := by
                rw [completes.offset, List.drop_left]
              rw [given, ← whole]
              exact PrefixedReadStream.delivers_remaining unbroken
    · cases request.target with
      | error error => exact ⟨.error error, _, fun _ _ _ _ => rfl⟩
      | ok target =>
          refine ⟨.ok target, _, fun early socket unbroken whole => ⟨_, rfl, ?_⟩⟩
          rw [← whole, ← List.append_assoc]
          exact PrefixedReadStream.delivers_remaining unbroken

/-- However the client's bytes are cut into reads, the answer is the same, and so
is what the stream delivers. -/
theorem handleClient_segmented (completes : lib.Completes head request) (rest : Bytes) :
    ∃ answer : Except String TargetAddr, ∃ response, ∀ cut later,
      (∀ read ∈ cut, read.stops = false) → contents cut = head ++ rest → contents later = [] →
      match answer with
        | .error error =>
            handleClient lib users write (cut ++ later) [] = some ⟨.error error, response⟩
        | .ok target => ∃ stream : PrefixedReadStream,
            handleClient lib users write (cut ++ later) [] =
                some ⟨.ok (some ⟨stream, target⟩), response⟩ ∧
              stream.Delivers (request.forwarded head rest) := by
  obtain ⟨answer, response, served⟩ := serveRequest_delivers users write completes rest
  refine ⟨answer, response, fun cut later steady whole nothing => ?_⟩
  have short : ([] : Bytes).length < head.length := List.length_pos_iff.mpr completes.nonempty
  obtain ⟨early, left, tail, leftSteady, handled⟩ :=
    handleClient_cut users write completes later steady short whole
  have unbroken : Unbroken (left ++ later) := ⟨left, later, rfl, leftSteady, nothing⟩
  have rests : early ++ contents (left ++ later) = rest := by
    rw [contents_append, nothing, List.append_nil, tail]
  have result := served early _ unbroken rests
  rw [handled]
  cases answer with
  | error error => exact congrArg some result
  | ok target =>
      obtain ⟨stream, same, delivers⟩ := result
      exact ⟨stream, congrArg some same, delivers⟩

end Cut

def exampleCut : List PollRead :=
  [.ready ((exampleConnect.head exampleValues.1).take 9), .pending,
    .ready ((exampleConnect.head exampleValues.1).drop 9 ++ [7]), .ready [8]]

/-- A CONNECT whose first data comes with the end of its header block. -/
theorem handleClient_segmented_early : ∃ stream : PrefixedReadStream,
    handleClient (exampleLib exampleConnect) (some exampleUsers) (.ok ())
      (exampleCut ++ [.ready []])
        [] = some ⟨.ok (some ⟨stream, .domain "a" 1⟩), connectionEstablished⟩ ∧
      stream.Delivers [7, 8] := by
  obtain ⟨completes, -⟩ := exampleLib_completes exampleConnect
  obtain ⟨answer, response, every⟩ :=
    handleClient_segmented (some exampleUsers) (.ok ()) completes [7, 8]
  have result := every exampleCut [.ready []] (by decide) (by decide) rfl
  have handled : handleClient (exampleLib exampleConnect) (some exampleUsers) (.ok ())
      (exampleCut ++ [.ready []]) [] =
        some ⟨.ok (some ⟨⟨[.ready [8], .ready []], [7]⟩, .domain "a" 1⟩),
          connectionEstablished⟩ := by
    rfl
  cases answer with
  | error error => cases handled.symm.trans result
  | ok target =>
      obtain ⟨stream, same, delivers⟩ := result
      cases handled.symm.trans same
      exact ⟨_, handled, delivers⟩

/-! Requests that differ in the value of a `Proxy-Authorization` header. -/

/-- A client has sent `head ++ rest`, cut in some way, and was accepted. -/
def HttpLib.Accepts (lib : HttpLib) (users : List HttpUser) (head rest : Bytes)
    (handler : StreamHandler) : Prop :=
  ∃ write cut later response, (∀ read ∈ cut, read.stops = false) ∧ contents cut = head ++ rest ∧
    contents later = [] ∧
      handleClient lib (some users) write (cut ++ later) [] =
        some ⟨.ok (some handler), response⟩

section Credentials

variable {lib : HttpLib} {users : List HttpUser} {shape : HttpShape} {value other rest head : Bytes}
  {request : HttpRequest} {handler second : StreamHandler}

theorem target_of_serveRequest {users : Option (List HttpUser)} {write : Except String Unit}
    {buf response : Bytes} {socket : List PollRead}
    (served : serveRequest lib users write request buf socket =
      ⟨.ok (some handler), response⟩) : request.target = .ok handler.target := by
  unfold serveRequest at served
  split at served
  · cases write with
    | error error => cases served
    | ok _ => cases served
  · split at served
    · cases found : request.target with
      | error error => rw [found] at served; cases served
      | ok target =>
          rw [found] at served
          cases write with
          | error error => cases served
          | ok _ => cases served; rfl
    · cases found : request.target with
      | error error => rw [found] at served; cases served
      | ok target => rw [found] at served; cases served; rfl

theorem HttpLib.Accepts.forwards (accepts : lib.Accepts users head rest handler)
    (completes : lib.Completes head request) : request.target = .ok handler.target ∧
      handler.stream.Delivers (request.forwarded head rest) := by
  obtain ⟨write, cut, later, response, steady, whole, nothing, handled⟩ := accepts
  have short : ([] : Bytes).length < head.length := List.length_pos_iff.mpr completes.nonempty
  obtain ⟨early, left, tail, leftSteady, cutHandled⟩ :=
    handleClient_cut (some users) write completes later steady short whole
  have served := Option.some.inj (cutHandled.symm.trans handled)
  refine ⟨target_of_serveRequest served, ?_⟩
  obtain ⟨answer, _, every⟩ := serveRequest_delivers (some users) write completes rest
  have unbroken : Unbroken (left ++ later) := ⟨left, later, rfl, leftSteady, nothing⟩
  have delivered := every early _ unbroken (by rw [contents_append, nothing, List.append_nil, tail])
  cases answer with
  | error error => cases served.symm.trans delivered
  | ok target =>
      obtain ⟨stream, same, delivers⟩ := delivered
      cases served.symm.trans same
      exact delivers

theorem accepts_of_authorized (completes : lib.Completes head request)
    (authorized : request.authorized lib users = true) {target : TargetAddr}
    (valid : request.target = .ok target) (rest : Bytes) :
    ∃ handler, lib.Accepts users head rest handler := by
  have short : ([] : Bytes).length < head.length := List.length_pos_iff.mpr completes.nonempty
  have steady : ∀ read ∈ [PollRead.ready (head ++ rest)], read.stops = false := by
    refine List.forall_mem_cons.mpr ⟨?_, nofun⟩
    exact List.isEmpty_eq_false_iff.mpr (List.append_ne_nil_of_left_ne_nil completes.nonempty rest)
  have whole : contents [.ready (head ++ rest)] = head ++ rest := List.append_nil _
  obtain ⟨early, left, -, -, handled⟩ :=
    handleClient_cut (some users) (.ok ()) completes [] steady short whole
  have served : ∃ handler response, serveRequest lib (some users) (.ok ()) request (head ++ early)
      (left ++ []) = ⟨.ok (some handler), response⟩ := by
    unfold serveRequest
    rw [valid, Option.any_some, authorized, Bool.not_true, if_neg Bool.false_ne_true]
    split
    · exact ⟨_, _, rfl⟩
    · exact ⟨_, _, rfl⟩
  obtain ⟨handler, response, served⟩ := served
  exact ⟨handler, .ok (), _, [], response, steady, whole, rfl, handled.trans (congrArg some served)⟩

theorem HttpShape.headerText_eq (auth : shape.IsAuth) :
    (shape.request value).headerText "Host" = (shape.request other).headerText "Host" := by
  have notHost : ¬ eqIgnoreAsciiCase (asBytes shape.name) (asBytes "Host") = true := by
    intro host
    have same := (eq_of_beq auth).symm.trans (eq_of_beq host)
    exact absurd same (by decide)
  unfold HttpRequest.headerText request
  simp only [List.find?_append, List.find?_cons, notHost]

theorem HttpShape.isConnect_iff (shape : HttpShape) {value : Bytes} :
    (shape.request value).isConnect = true ↔ shape.method = some "CONNECT" := by
  unfold HttpRequest.isConnect
  change (shape.method.getD "" == "CONNECT") = true ↔ _
  cases shape.method <;> simp

theorem HttpShape.target_eq (auth : shape.IsAuth) :
    (shape.request value).target = (shape.request other).target := by
  unfold HttpRequest.target
  rw [show (shape.request value).headerText "Host" = (shape.request other).headerText "Host" from
    headerText_eq auth]
  rfl

/-- Two clients that differ only in valid credentials get the same target; what
it receives is the same exactly for a CONNECT. -/
theorem credentials_hidden_iff (auth : shape.IsAuth)
    (completes : lib.Completes (shape.head value) (shape.request value))
    (otherCompletes : lib.Completes (shape.head other) (shape.request other))
    (accepts : lib.Accepts users (shape.head value) rest handler)
    (otherAccepts : lib.Accepts users (shape.head other) rest second) :
    handler.target = second.target ∧
      ((∃ bytes, handler.stream.Delivers bytes ∧ second.stream.Delivers bytes) ↔
        shape.method = some "CONNECT" ∨ value = other) := by
  obtain ⟨target, delivers⟩ := accepts.forwards completes
  obtain ⟨otherTarget, otherDelivers⟩ := otherAccepts.forwards otherCompletes
  have same : handler.target = second.target :=
    Except.ok.inj (target.symm.trans ((HttpShape.target_eq auth).trans otherTarget))
  refine ⟨same, ⟨?_, ?_⟩⟩
  · rintro ⟨bytes, first, also⟩
    by_contra differ
    obtain ⟨notConnect, values⟩ := not_or.mp differ
    have forwards : ∀ value, (shape.request value).forwarded (shape.head value) rest =
        shape.head value ++ rest := fun value => if_neg (shape.isConnect_iff.not.mpr notConnect)
    rw [forwards] at delivers otherDelivers
    have heads := (delivers.unique first).trans (also.unique otherDelivers)
    exact values (shape.head_inj (List.append_cancel_right heads))
  · rintro (connect | rfl)
    · have forwards : ∀ value, (shape.request value).forwarded (shape.head value) rest = rest :=
        fun value => if_pos (shape.isConnect_iff.mpr connect)
      rw [forwards] at delivers otherDelivers
      exact ⟨rest, delivers, otherDelivers⟩
    · exact ⟨_, delivers, otherDelivers⟩

end Credentials

theorem exampleLib_accepts (shape : HttpShape) (target : TargetAddr)
    (valid : (shape.request exampleValues.1).target = .ok target)
    (otherValid : (shape.request exampleValues.2).target = .ok target)
    (authorized : (shape.request exampleValues.1).authorized (exampleLib shape) exampleUsers = true)
    (otherAuthorized :
      (shape.request exampleValues.2).authorized (exampleLib shape) exampleUsers = true) :
    ∃ handler second,
      (exampleLib shape).Accepts exampleUsers (shape.head exampleValues.1) [7] handler ∧
      (exampleLib shape).Accepts exampleUsers (shape.head exampleValues.2) [7] second := by
  obtain ⟨completes, otherCompletes⟩ := exampleLib_completes shape
  obtain ⟨handler, accepts⟩ := accepts_of_authorized completes authorized valid [7]
  obtain ⟨second, otherAccepts⟩ :=
    accepts_of_authorized otherCompletes otherAuthorized otherValid [7]
  exact ⟨handler, second, accepts, otherAccepts⟩

theorem credentials_hidden_connect : ∃ handler second,
    (exampleLib exampleConnect).Accepts exampleUsers
        (exampleConnect.head exampleValues.1) [7] handler ∧
      (exampleLib exampleConnect).Accepts exampleUsers
        (exampleConnect.head exampleValues.2) [7] second ∧
      handler.target = second.target ∧
      ∃ bytes, handler.stream.Delivers bytes ∧ second.stream.Delivers bytes := by
  obtain ⟨completes, otherCompletes⟩ := exampleLib_completes exampleConnect
  obtain ⟨handler, second, accepts, otherAccepts⟩ :=
    exampleLib_accepts exampleConnect (.domain "a" 1) (by decide) (by decide) (by decide)
      (by decide)
  obtain ⟨same, hidden⟩ :=
    credentials_hidden_iff (by decide) completes otherCompletes accepts otherAccepts
  exact ⟨handler, second, accepts, otherAccepts, same, hidden.mpr (.inl rfl)⟩

/-- Two accepted clients whose destinations get different bytes. -/
theorem credentials_forwarded : ∃ handler second,
    exampleGet.IsAuth ∧
      (exampleLib exampleGet).Completes
        (exampleGet.head exampleValues.1)
        (exampleGet.request exampleValues.1) ∧
      (exampleLib exampleGet).Completes
        (exampleGet.head exampleValues.2)
        (exampleGet.request exampleValues.2) ∧
      (exampleLib exampleGet).Accepts exampleUsers
        (exampleGet.head exampleValues.1) [7] handler ∧
      (exampleLib exampleGet).Accepts exampleUsers
        (exampleGet.head exampleValues.2) [7] second ∧
      ¬ ∃ bytes, handler.stream.Delivers bytes ∧ second.stream.Delivers bytes := by
  obtain ⟨completes, otherCompletes⟩ := exampleLib_completes exampleGet
  obtain ⟨handler, second, accepts, otherAccepts⟩ :=
    exampleLib_accepts exampleGet (.domain "a" 80) (by decide) (by decide) (by decide) (by decide)
  refine ⟨handler, second, by decide, completes, otherCompletes, accepts, otherAccepts, ?_⟩
  rintro ⟨bytes, first, also⟩
  have delivers := (accepts.forwards completes).2.unique first
  have otherDelivers := (otherAccepts.forwards otherCompletes).2.unique also
  have forwards : ∀ value, (exampleGet.request value).forwarded
      (exampleGet.head value) [7] =
        exampleGet.head value ++ [7] := fun _ => rfl
  have heads := (forwards _).symm.trans
    (delivers.trans (otherDelivers.symm.trans (forwards _)))
  exact absurd (HttpShape.head_inj _ (List.append_cancel_right heads)) (by decide)

end QuicProxy
