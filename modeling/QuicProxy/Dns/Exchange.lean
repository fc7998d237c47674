import QuicProxy.Dns.Flight

namespace QuicProxy

/-! `exchange_with_cache` of a `UdpDns` (`src/dns/mod.rs`): queries that are
answered at the same time, out of the cache, by a query under way, or by what the
upstream server sends. -/

namespace Dns

structure DnsQuestion where
  qname : List Bytes
  qtype : UInt16
  qclass : UInt16
  unicastResponse : Bool
deriving DecidableEq

structure ResourceRecord where
  ttl : UInt32
  rest : Bytes
deriving DecidableEq

structure Packet where
  id : UInt16
  flags : UInt16
  questions : List DnsQuestion
  answers : List ResourceRecord
  nameServers : List ResourceRecord
  additionalRecords : List ResourceRecord
deriving DecidableEq

def Packet.mapRecords (packet : Packet) (change : ResourceRecord → ResourceRecord) : Packet :=
  { packet with
    answers := packet.answers.map change
    nameServers := packet.nameServers.map change
    additionalRecords := packet.additionalRecords.map change }

/-- The crate `simple_dns`, as far as the exchange uses it. -/
structure SimpleDns where
  parse : Bytes → Except String Packet
  build : Packet → Except String Bytes
  /-- `Name::to_string`. -/
  nameText : List Bytes → String
  /-- The `Debug` text of a `QTYPE`. -/
  qtypeText : UInt16 → String

/-- What is built is read back with its id and its questions. -/
def SimpleDns.Lawful (dns : SimpleDns) : Prop :=
  ∀ packet bytes read, dns.build packet = .ok bytes → dns.parse bytes = .ok read →
    read.id = packet.id ∧ read.questions = packet.questions

/-! The pieces of an exchange. -/

/-- The TTL that `apply_ttl_to_response` gives a record. -/
def effectiveTtl (minTtl maxTtl : Option UInt32) (ttl : UInt32) : UInt32 :=
  let low := minTtl.elim ttl fun least => if ttl < least then least else ttl
  maxTtl.elim low fun most => if most < low then most else low

/-- `apply_ttl_to_response`. -/
def applyTtl (minTtl maxTtl : Option UInt32) (packet : Packet) : Packet × Option UInt32 :=
  let applied := packet.mapRecords fun record =>
    { record with ttl := effectiveTtl minTtl maxTtl record.ttl }
  (applied, ((applied.answers ++ applied.nameServers ++ applied.additionalRecords).map
    (·.ttl)).min?)

/-- `cap_record_ttls`. -/
def capRecordTtls (packet : Packet) (remaining : UInt32) : Packet :=
  packet.mapRecords fun record => { record with ttl := min record.ttl remaining }

def SimpleDns.cacheKey (dns : SimpleDns) (outboundTag : String) (question : DnsQuestion) : String :=
  outboundTag ++ ":" ++ dns.nameText question.qname ++ ":" ++ dns.qtypeText question.qtype

/-- `response_with_id`. -/
def SimpleDns.responseWithId (dns : SimpleDns) (response : Bytes) (id : UInt16) :
    Except String Packet :=
  match dns.parse response with
  | .ok packet => .ok { packet with id := id }
  | .error error => .error s!"Failed to parse DNS cached response: {error}"

/-- `parse_owned_packet`, on a datagram. -/
def SimpleDns.readDatagram (dns : SimpleDns) (payload : Bytes) : Except String Packet :=
  match dns.parse payload with
  | .ok packet => .ok packet
  | .error error => .error s!"Failed to parse DNS UDP response: {error}"

/-- A response in the cache, and the query that it has been stored for. -/
structure StoredResponse where
  key : String
  id : UInt16
  question : Option DnsQuestion
  bytes : Bytes
deriving DecidableEq

structure AskedQuestion where
  key : String
  question : Option DnsQuestion
deriving DecidableEq

structure DnsServer where
  /-- All that has been stored; a `get` gives any of it that its key has, or nothing. -/
  stored : List StoredResponse
  flights : FlightTable
  /-- The key of each flight. -/
  owners : List String

inductive ExchangeStage where
  | looking
  | joining
  | following (flight : Nat)
  /-- A follower without an outcome looks into the cache again. -/
  | relooking
  /-- A leader looks into the cache again. -/
  | rechecking (flight : Nat)
  /-- The query is sent; a leader has a flight. -/
  | asking (flight : Option Nat)
  | settling (flight : Nat) (result : Except String Packet)
  /-- The leader ends its flight; without a result it has been dropped. -/
  | leaving (call : FlightCall) (result : Option (Except String Packet))
  | returned (result : Except String Packet)
  | dropped

structure ExchangeCall where
  query : Packet
  key : String
  stage : ExchangeStage

structure ExchangeRequest where
  query : Packet
  outboundTag : String

inductive ExchangeChoice where
  | advance
  /-- What the cache gives. -/
  | hit (index : Nat) (remaining : UInt32)
  | miss
  /-- What `recv_from` gives, or that there was an error before. -/
  | upstream (payload : Except String Bytes)
  /-- Whether anyone follows. -/
  | followed (any : Bool)
  | drop

structure DnsSettings where
  hasCache : Bool
  minTtl : Option UInt32
  maxTtl : Option UInt32

namespace ExchangeCall

def becomes (call : ExchangeCall) (stage : ExchangeStage) : ExchangeCall :=
  { call with stage := stage }

def asks (call : ExchangeCall) : AskedQuestion := ⟨call.key, call.query.questions.head?⟩

variable (dns : SimpleDns) (settings : DnsSettings)

/-- A query without a question, or a server without a cache, goes upstream. -/
def start (request : ExchangeRequest) : ExchangeCall where
  query := request.query
  key := (request.query.questions.head?.map (dns.cacheKey request.outboundTag)).getD ""
  stage :=
    if request.query.questions = [] ∨ ¬settings.hasCache then .asking none else .looking

/-- `cached_response`. -/
def cachedResponse (server : DnsServer) (call : ExchangeCall) (index : Nat) (remaining : UInt32) :
    Option (Except String Packet) :=
  match server.stored[index]? with
  | some entry =>
      if entry.key = call.key then
        some ((dns.responseWithId entry.bytes call.query.id).map (capRecordTtls · remaining))
      else none
  | none => none

/-- `exchange_and_store`, from the answer of `exchange_without_cache`; a query
without a question is not stored. -/
def exchangeAndStore (server : DnsServer) (call : ExchangeCall) (payload : Except String Bytes) :
    DnsServer × Except String Packet :=
  match payload.bind dns.readDatagram with
  | .error error => (server, .error error)
  | .ok packet =>
      if call.query.questions = [] then (server, .ok packet)
      else
        let (applied, ttl) := applyTtl settings.minTtl settings.maxTtl packet
        if settings.hasCache ∧ ttl.any (0 < ·) then
          match dns.build applied with
          | .error error =>
              (server, .error s!"Failed to build DNS response for cache: {error}")
          | .ok bytes =>
              ({ server with stored := server.stored ++
                  [⟨call.key, call.query.id, call.query.questions.head?, bytes⟩] }, .ok applied)
        else (server, .ok applied)

def shared : Except String Packet → Outcome
  | .error error => .error error
  | .ok packet =>
      match dns.build packet with
      | .ok bytes => .ok bytes
      | .error error => .error s!"Failed to build DNS response: {error}"

def leave (server : DnsServer) (call : ExchangeCall) (flight : Nat)
    (result : Option (Except String Packet)) : DnsServer × ExchangeCall :=
  let (flights, leaving) := FlightCall.release server.flights call.key flight
  ({ server with flights := flights }, call.becomes (.leaving leaving result))

def join (server : DnsServer) (call : ExchangeCall) : Option (DnsServer × ExchangeCall) :=
  match FlightCall.act server.flights (.joining call.key) .advance with
  | some (flights, .following _ flight) =>
      some ({ server with flights := flights }, call.becomes (.following flight))
  | some (flights, .leading _ flight) =>
      some ({ server with flights := flights, owners := server.owners ++ [call.key] },
        call.becomes (.rechecking flight))
  | _ => none

def follow (server : DnsServer) (call : ExchangeCall) (flight : Nat) :
    Option (DnsServer × ExchangeCall) :=
  match FlightCall.follow server.flights call.key flight with
  | some (_, .followed _ _ (some (.ok bytes))) =>
      some (server, call.becomes (.returned (dns.responseWithId bytes call.query.id)))
  | some (_, .followed _ _ (some (.error error))) =>
      some (server, call.becomes (.returned (.error error)))
  | some (_, .followed _ _ none) => some (server, call.becomes .relooking)
  | _ => none

def settle (server : DnsServer) (call : ExchangeCall) (flight : Nat)
    (result : Except String Packet) (followers : Bool) : DnsServer × ExchangeCall :=
  if followers then
    let (flights, leaving) :=
      FlightCall.finish server.flights call.key flight (shared dns result)
    ({ server with flights := flights }, call.becomes (.leaving leaving (some result)))
  else leave server call flight (some result)

def goOn (server : DnsServer) (call : ExchangeCall) (leaving : FlightCall)
    (result : Option (Except String Packet)) : Option (DnsServer × ExchangeCall) :=
  match leaving with
  | .led _ _ _ => some (server, call.becomes (result.elim .dropped .returned))
  | leaving =>
      (FlightCall.act server.flights leaving .advance).map fun (flights, next) =>
        ({ server with flights := flights }, call.becomes (.leaving next result))

def act (server : DnsServer) (call : ExchangeCall) (choice : ExchangeChoice) :
    Option (DnsServer × ExchangeCall) :=
  match call.stage, choice with
  | .looking, .hit index remaining | .relooking, .hit index remaining =>
      (cachedResponse dns server call index remaining).map fun result =>
        (server, call.becomes (.returned result))
  | .looking, .miss => some (server, call.becomes .joining)
  | .relooking, .miss => some (server, call.becomes (.asking none))
  | .joining, .advance => join server call
  | .following flight, .advance => follow dns server call flight
  | .rechecking flight, .hit index remaining =>
      (cachedResponse dns server call index remaining).map fun result =>
        leave server call flight (some result)
  | .rechecking flight, .miss => some (server, call.becomes (.asking (some flight)))
  | .asking none, .upstream payload =>
      let (server, result) := exchangeAndStore dns settings server call payload
      some (server, call.becomes (.returned result))
  | .asking (some flight), .upstream payload =>
      let (server, result) := exchangeAndStore dns settings server call payload
      some (server, call.becomes (.settling flight result))
  | .settling flight result, .followed any => some (settle dns server call flight result any)
  | .leaving leaving result, .advance => goOn server call leaving result
  | .rechecking flight, .drop | .asking (some flight), .drop => some (leave server call flight none)
  | .looking, .drop | .relooking, .drop | .joining, .drop | .following _, .drop
  | .asking none, .drop => some (server, call.becomes .dropped)
  | _, _ => none

end ExchangeCall

abbrev ExchangeConfig := Pool.Config DnsServer ExchangeCall

abbrev ExchangeEvent := Pool.Event ExchangeRequest ExchangeChoice

namespace DnsServer

def program (dns : SimpleDns) (settings : DnsSettings) :
    Pool.Program DnsServer ExchangeCall ExchangeRequest ExchangeChoice where
  start := ExchangeCall.start dns settings
  act config := ExchangeCall.act dns settings config.shared

def initial : ExchangeConfig := ⟨⟨[], ⟨∅, []⟩, []⟩, []⟩

structure Answers (query packet : Packet) : Prop where
  id : packet.id = query.id
  question : packet.questions.head? = query.questions.head?

/-- What has been stored for a query answers it. -/
def Genuine (dns : SimpleDns) (entry : StoredResponse) : Prop :=
  ∀ packet, dns.parse entry.bytes = .ok packet →
    packet.id = entry.id ∧ packet.questions.head? = entry.question

/-- What is returned for a query with a question answers it, and so does what is
stored for one. -/
structure Matched (dns : SimpleDns) (config : ExchangeConfig) : Prop where
  returned : ∀ call ∈ config.calls, call.query.questions ≠ [] → ∀ packet,
    call.stage = .returned (.ok packet) → Answers call.query packet
  stored : ∀ entry ∈ config.shared.stored, Genuine dns entry

/-- Upstream answers the query, and queries of one cache key ask one question. -/
def Upright (dns : SimpleDns) (settings : DnsSettings) (config : ExchangeConfig) :
    ExchangeEvent → Prop
  | .start request =>
      ∀ other ∈ config.calls, other.key = (ExchangeCall.start dns settings request).key →
        other.query.questions.head? = request.query.questions.head?
  | .advance index (.upstream (.ok payload)) =>
      ∀ call ∈ config.calls[index]?, call.query.questions ≠ [] →
        ∀ packet ∈ (dns.parse payload).toOption, Answers call.query packet
  | .advance _ _ => True

instance (query packet : Packet) : Decidable (Answers query packet) :=
  decidable_of_iff (packet.id = query.id ∧ packet.questions.head? = query.questions.head?)
    ⟨fun ⟨id, question⟩ => ⟨id, question⟩, fun ⟨id, question⟩ => ⟨id, question⟩⟩

instance (dns : SimpleDns) (settings : DnsSettings) (config : ExchangeConfig) :
    DecidablePred (Upright dns settings config)
  | .start request =>
      inferInstanceAs (Decidable (∀ other ∈ config.calls,
        other.key = (ExchangeCall.start dns settings request).key →
          other.query.questions.head? = request.query.questions.head?))
  | .advance index (.upstream (.ok payload)) =>
      inferInstanceAs (Decidable (∀ call ∈ config.calls[index]?, call.query.questions ≠ [] →
        ∀ packet ∈ (dns.parse payload).toOption, Answers call.query packet))
  | .advance _ (.upstream (.error _)) | .advance _ .advance | .advance _ (.hit _ _)
  | .advance _ .miss | .advance _ (.followed _) | .advance _ .drop => isTrue trivial

/-! What the calls rely on. -/

def asked (config : ExchangeConfig) : List AskedQuestion := config.calls.map ExchangeCall.asks

/-- An outcome of a flight answers the question of its key. -/
def Truthful (dns : SimpleDns) (owners : List String) (asked : List AskedQuestion) (flight : Nat)
    (outcome : Outcome) : Prop :=
  ∀ bytes packet, outcome = .ok bytes → dns.parse bytes = .ok packet →
    ∃ key, owners[flight]? = some key ∧ ⟨key, packet.questions.head?⟩ ∈ asked

def Leaving (dns : SimpleDns) (owners : List String) (asked : List AskedQuestion) :
    FlightCall → Prop
  | .publishing _ flight outcome => Truthful dns owners asked flight outcome
  | .closing _ _ _ | .led _ _ _ => True
  | .joining _ | .leading _ _ | .following _ _ | .followed _ _ _ | .dropped => False

def Sound (dns : SimpleDns) (owners : List String) (asked : List AskedQuestion)
    (call : ExchangeCall) : Prop :=
  match call.stage with
  | .looking | .joining | .rechecking _ | .asking (some _) => call.query.questions ≠ []
  | .following flight => call.query.questions ≠ [] ∧ owners[flight]? = some call.key
  | .settling _ result =>
      call.query.questions ≠ [] ∧ ∀ packet, result = .ok packet → Answers call.query packet
  | .leaving leaving result =>
      Leaving dns owners asked leaving ∧
        ∀ packet, result = some (.ok packet) → Answers call.query packet
  | .returned result =>
      call.query.questions ≠ [] → ∀ packet, result = .ok packet → Answers call.query packet
  | .relooking | .asking none | .dropped => True

structure Kept (dns : SimpleDns) (config : ExchangeConfig) : Prop where
  consistent : ∀ one ∈ asked config, ∀ other ∈ asked config, one.key = other.key →
    one.question = other.question
  owners : config.shared.owners.length = config.shared.flights.channels.length
  entered : ∀ key flight, config.shared.flights.inflight.lookup key = some flight →
    config.shared.owners[flight]? = some key
  channels : ∀ flight channel, config.shared.flights.channels[flight]? = some channel →
    ∀ outcome ∈ channel.value, Truthful dns config.shared.owners (asked config) flight outcome
  stored : ∀ entry ∈ config.shared.stored,
    Genuine dns entry ∧ ⟨entry.key, entry.question⟩ ∈ asked config
  sound : ∀ call ∈ config.calls, Sound dns config.shared.owners (asked config) call

theorem Kept.matched {dns : SimpleDns} {config : ExchangeConfig} (kept : Kept dns config) :
    Matched dns config where
  returned := by
    intro call member questions packet returned
    have sound := kept.sound call member
    rw [Sound, returned] at sound
    exact sound questions packet rfl
  stored := fun entry member => (kept.stored entry member).1

theorem kept_initial (dns : SimpleDns) : Kept dns initial where
  consistent := nofun
  owners := rfl
  entered := fun key flight found => by
    rw [show initial.shared.flights.inflight = ∅ from rfl, AList.lookup_empty] at found
    cases found
  channels := nofun
  stored := nofun
  sound := nofun

theorem Truthful.mono {dns : SimpleDns} {owners more : List String}
    {asked longer : List AskedQuestion} {flight : Nat} {outcome : Outcome}
    (truthful : Truthful dns owners asked flight outcome)
    (grows : ∀ {flight : Nat} {key : String}, owners[flight]? = some key → more[flight]? = some key)
    (asks : asked ⊆ longer) : Truthful dns more longer flight outcome := by
  intro bytes packet same parsed
  obtain ⟨key, owned, member⟩ := truthful bytes packet same parsed
  exact ⟨key, grows owned, asks member⟩

theorem Sound.mono {dns : SimpleDns} {owners more : List String}
    {asked longer : List AskedQuestion} {call : ExchangeCall} (sound : Sound dns owners asked call)
    (grows : ∀ {flight : Nat} {key : String}, owners[flight]? = some key → more[flight]? = some key)
    (asks : asked ⊆ longer) : Sound dns more longer call := by
  obtain ⟨query, key, stage⟩ := call
  cases stage with
  | following flight => exact sound.imp_right grows
  | leaving leaving result =>
      refine sound.imp_left fun holds => ?_
      cases leaving with
      | publishing key flight outcome => exact holds.mono grows asks
      | closing | led => trivial
      | joining | leading | following | followed | dropped => exact holds.elim
  | asking flight =>
      cases flight with
      | none => trivial
      | some flight => exact sound
  | looking | joining | rechecking | settling | returned => exact sound
  | relooking | dropped => trivial

section Step

variable {dns : SimpleDns} {settings : DnsSettings} {config : ExchangeConfig}
variable {before after : List ExchangeCall} {call moved : ExchangeCall} {next : DnsServer}

theorem asked_act (shape : config.calls = before ++ call :: after)
    (same : moved.asks = call.asks) :
    asked ⟨next, before ++ moved :: after⟩ = asked config := by
  rw [asked, asked, shape, List.map_append, List.map_append]
  refine congrArg _ ?_
  rw [List.map_cons, List.map_cons, same]

theorem Kept.quiet (kept : Kept dns config) (shape : config.calls = before ++ call :: after)
    (stage : ExchangeStage)
    (sound : Sound dns config.shared.owners (asked config) (call.becomes stage)) :
    Kept dns ⟨config.shared, before ++ call.becomes stage :: after⟩ := by
  have same : asked ⟨config.shared, before ++ call.becomes stage :: after⟩ = asked config :=
    asked_act shape rfl
  have sounds := kept.sound
  rw [shape] at sounds
  refine ⟨same ▸ kept.consistent, kept.owners, kept.entered, same ▸ kept.channels,
    same ▸ kept.stored, ?_⟩
  rw [same]
  exact Pool.forall_act sounds (fun _ => sound) fun _ => id

theorem Kept.flights (kept : Kept dns config) (shape : config.calls = before ++ call :: after)
    {flights : FlightTable} {more : List String} (stage : ExchangeStage)
    (grows : ∀ {flight : Nat} {key : String},
      config.shared.owners[flight]? = some key → more[flight]? = some key)
    (owners : more.length = flights.channels.length)
    (entered : ∀ key flight, flights.inflight.lookup key = some flight → more[flight]? = some key)
    (channels : ∀ flight channel, flights.channels[flight]? = some channel →
      ∀ outcome ∈ channel.value, Truthful dns more (asked config) flight outcome)
    (sound : Sound dns more (asked config) (call.becomes stage)) :
    Kept dns ⟨{ config.shared with flights := flights, owners := more },
      before ++ call.becomes stage :: after⟩ := by
  have same : asked ⟨{ config.shared with flights := flights, owners := more },
      before ++ call.becomes stage :: after⟩ = asked config := asked_act shape rfl
  have sounds := kept.sound
  rw [shape] at sounds
  refine ⟨same ▸ kept.consistent, owners, entered, same ▸ channels, same ▸ kept.stored, ?_⟩
  rw [same]
  exact Pool.forall_act sounds (fun _ => sound) fun _ given =>
    given.mono grows (List.Subset.refl _)

theorem mem_asked (shape : config.calls = before ++ call :: after) : call.asks ∈ asked config := by
  rw [asked, shape]
  exact List.mem_map_of_mem (by simp)

theorem answers_cached (kept : Kept dns config) (shape : config.calls = before ++ call :: after)
    {index : Nat} {remaining : UInt32} {result : Except String Packet}
    (hit : call.cachedResponse dns config.shared index remaining = some result) {packet : Packet}
    (succeeds : result = .ok packet) : Answers call.query packet := by
  unfold ExchangeCall.cachedResponse at hit
  split at hit
  · rename_i entry found
    split at hit
    · rename_i key
      cases hit
      unfold SimpleDns.responseWithId at succeeds
      split at succeeds
      · rename_i read parsed
        cases succeeds
        obtain ⟨genuine, member⟩ := kept.stored entry (List.mem_of_getElem? found)
        refine ⟨rfl, (genuine read parsed).2.trans ?_⟩
        exact kept.consistent _ member _ (mem_asked shape) key
      · cases succeeds
    · cases hit
  · cases hit

/-- What the leader of a flight has sent answers the question of a follower. -/
theorem answers_shared (kept : Kept dns config) (shape : config.calls = before ++ call :: after)
    {flight : Nat} {bytes : Bytes} {packet : Packet}
    (truthful : Truthful dns config.shared.owners (asked config) flight (.ok bytes))
    (owned : config.shared.owners[flight]? = some call.key)
    (succeeds : dns.responseWithId bytes call.query.id = .ok packet) :
    Answers call.query packet := by
  unfold SimpleDns.responseWithId at succeeds
  split at succeeds
  · rename_i read parsed
    cases succeeds
    obtain ⟨key, own, member⟩ := truthful bytes read rfl parsed
    cases owned.symm.trans own
    exact ⟨rfl, kept.consistent _ member _ (mem_asked shape) rfl⟩
  · cases succeeds

theorem Kept.follow (kept : Kept dns config) (shape : config.calls = before ++ call :: after)
    {flight : Nat} (owned : config.shared.owners[flight]? = some call.key)
    (followed : call.follow dns config.shared flight = some (next, moved)) :
    Kept dns ⟨next, before ++ moved :: after⟩ := by
  unfold ExchangeCall.follow FlightCall.follow at followed
  cases channel : config.shared.flights.channels[flight]? with
  | none =>
      rw [channel] at followed
      cases followed
  | some held =>
      rw [channel] at followed
      obtain ⟨value, linked⟩ := held
      cases value with
      | some outcome =>
          have truthful := kept.channels flight _ channel outcome rfl
          cases outcome with
          | ok bytes =>
              cases followed
              exact kept.quiet shape _ fun _ _ same => answers_shared kept shape truthful owned same
          | error error =>
              cases followed
              exact kept.quiet shape _ fun _ _ => nofun
      | none =>
          cases linked with
          | false =>
              cases followed
              exact kept.quiet shape _ trivial
          | true => cases followed

theorem Kept.join (kept : Kept dns config) (shape : config.calls = before ++ call :: after)
    (questions : call.query.questions ≠ [])
    (joined : call.join config.shared = some (next, moved)) :
    Kept dns ⟨next, before ++ moved :: after⟩ := by
  unfold ExchangeCall.join at joined
  simp only [FlightCall.act] at joined
  cases entry : config.shared.flights.inflight.lookup call.key with
  | some flight =>
      rw [entry] at joined
      cases joined
      exact kept.quiet shape _ ⟨questions, kept.entered _ _ entry⟩
  | none =>
      rw [entry] at joined
      cases joined
      have grows {flight : Nat} {key : String} (owned : config.shared.owners[flight]? = some key) :
          (config.shared.owners ++ [call.key])[flight]? = some key := Pool.getElem?_start owned
      refine kept.flights shape _ grows ?_ (fun key flight found => ?_)
        (fun flight channel found outcome held => ?_) questions
      · change (config.shared.owners ++ _).length = (config.shared.flights.channels ++ _).length
        rw [List.length_append, List.length_append, kept.owners]
        rfl
      · change (config.shared.flights.inflight.insert call.key _).lookup key = some flight at found
        rcases eq_or_ne key call.key with rfl | different
        · rw [AList.lookup_insert] at found
          cases found
          rw [← kept.owners]
          exact List.getElem?_concat_length
        · rw [AList.lookup_insert_ne different] at found
          exact grows (kept.entered key flight found)
      · rcases Pool.getElem?_concat_cases found with earlier | ⟨-, rfl⟩
        · exact (kept.channels flight channel earlier outcome held).mono grows
            (List.Subset.refl _)
        · cases held

theorem lookup_removed {flights : FlightTable} {key other : String} {flight : Nat}
    (found : (flights.removed key).inflight.lookup other = some flight) :
    flights.inflight.lookup other = some flight := by
  change (flights.inflight.erase key).lookup other = some flight at found
  rcases eq_or_ne other key with rfl | different
  · rw [AList.lookup_erase] at found
    cases found
  · rw [AList.lookup_erase_ne different] at found
    exact found

theorem Kept.remove (kept : Kept dns config) (shape : config.calls = before ++ call :: after)
    (key : String) {leaving : FlightCall} {result : Option (Except String Packet)}
    (truthful : Leaving dns config.shared.owners (asked config) leaving)
    (answers : ∀ packet, result = some (.ok packet) → Answers call.query packet) :
    Kept dns ⟨{ config.shared with flights := config.shared.flights.removed key },
      before ++ call.becomes (.leaving leaving result) :: after⟩ :=
  kept.flights shape _ id kept.owners (fun key flight found =>
    kept.entered key flight (lookup_removed found)) kept.channels ⟨truthful, answers⟩

theorem Kept.leave (kept : Kept dns config) (shape : config.calls = before ++ call :: after)
    {flight : Nat} {result : Option (Except String Packet)}
    (answers : ∀ packet, result = some (.ok packet) → Answers call.query packet)
    (left : call.leave config.shared flight result = (next, moved)) :
    Kept dns ⟨next, before ++ moved :: after⟩ := by
  unfold ExchangeCall.leave FlightCall.release at left
  cases entry : config.shared.flights.inflight.lookup call.key with
  | some entered =>
      rw [entry] at left
      cases left
      exact kept.remove shape call.key trivial answers
  | none =>
      rw [entry] at left
      cases left
      exact kept.quiet shape _ ⟨trivial, answers⟩

theorem Kept.settle (lawful : dns.Lawful) (kept : Kept dns config)
    (shape : config.calls = before ++ call :: after) {flight : Nat}
    {result : Except String Packet} {followers : Bool}
    (answers : ∀ packet, result = .ok packet → Answers call.query packet)
    (settled : call.settle dns config.shared flight result followers = (next, moved)) :
    Kept dns ⟨next, before ++ moved :: after⟩ := by
  have answers' (packet : Packet) (same : some result = some (.ok packet)) :
      Answers call.query packet := answers packet (Option.some.inj same)
  cases followers with
  | false => exact kept.leave shape answers' settled
  | true =>
      simp only [ExchangeCall.settle, if_true, FlightCall.finish] at settled
      cases entry : config.shared.flights.inflight.lookup call.key with
      | some entered =>
          rw [entry] at settled
          cases settled
          refine kept.remove shape call.key (fun bytes read sent parsed => ?_) answers'
          refine ⟨call.key, kept.entered _ _ entry, ?_⟩
          cases result with
          | error error => cases sent
          | ok packet =>
              simp only [ExchangeCall.shared] at sent
              split at sent
              · rename_i built
                cases sent
                have same := (lawful packet bytes read built parsed).2
                rw [same, (answers packet rfl).question]
                exact mem_asked shape
              · cases sent
      | none =>
          rw [entry] at settled
          cases settled
          exact kept.quiet shape _ ⟨trivial, answers'⟩

theorem Kept.goOn (kept : Kept dns config) (shape : config.calls = before ++ call :: after)
    {leaving : FlightCall} {result : Option (Except String Packet)}
    (truthful : Leaving dns config.shared.owners (asked config) leaving)
    (answers : ∀ packet, result = some (.ok packet) → Answers call.query packet)
    (went : call.goOn config.shared leaving result = some (next, moved)) :
    Kept dns ⟨next, before ++ moved :: after⟩ := by
  have modified (flight : Nat) (change : FlightChannel → FlightChannel) (leaving : FlightCall)
      (holds : ∀ channel, config.shared.flights.channels[flight]? = some channel →
        ∀ outcome ∈ (change channel).value,
          Truthful dns config.shared.owners (asked config) flight outcome)
      (truthful : Leaving dns config.shared.owners (asked config) leaving) :
      Kept dns ⟨{ config.shared with flights := config.shared.flights.modifyChannel flight change },
        before ++ call.becomes (.leaving leaving result) :: after⟩ := by
    refine kept.flights shape _ id ?_ kept.entered (fun other channel found outcome held => ?_)
      ⟨truthful, answers⟩
    · exact kept.owners.trans (List.length_modify ..).symm
    · rcases eq_or_ne flight other with rfl | different
      · change (config.shared.flights.channels.modify flight change)[flight]? = _ at found
        rw [List.getElem?_modify_eq] at found
        obtain ⟨channel, there, rfl⟩ := Option.map_eq_some_iff.mp found
        exact holds channel there outcome held
      · refine kept.channels other channel ?_ outcome held
        exact (List.getElem?_modify_ne change _ different).symm.trans found
  cases leaving with
  | led key flight sent =>
      cases went
      cases result with
      | none => exact kept.quiet shape _ trivial
      | some result =>
          exact kept.quiet shape _ fun _ packet same => answers packet (congrArg _ same)
  | publishing key flight outcome =>
      cases went
      refine modified flight _ _ (fun channel there other held => ?_) trivial
      cases held
      exact truthful
  | closing key flight sent =>
      cases went
      exact modified flight _ _ (kept.channels flight) trivial
  | joining | leading | following | followed | dropped => exact truthful.elim

theorem answers_applied {query packet : Packet} (answers : Answers query packet)
    (minTtl maxTtl : Option UInt32) : Answers query (applyTtl minTtl maxTtl packet).1 :=
  ⟨answers.id, answers.question⟩

/-- What upstream sends in answer to a query is returned, and may be stored. -/
theorem Kept.exchangeAndStore (lawful : dns.Lawful) (kept : Kept dns config)
    (shape : config.calls = before ++ call :: after) {payload : Except String Bytes}
    (upright : ∀ packet, payload.bind dns.readDatagram = .ok packet →
      call.query.questions ≠ [] → Answers call.query packet)
    {result : Except String Packet}
    (exchanged : call.exchangeAndStore dns settings config.shared payload = (next, result)) :
    (∀ packet, result = .ok packet → call.query.questions ≠ [] → Answers call.query packet) ∧
      Kept dns ⟨next, config.calls⟩ := by
  unfold ExchangeCall.exchangeAndStore at exchanged
  split at exchanged
  · cases exchanged
    exact ⟨nofun, kept⟩
  · rename_i packet received
    split at exchanged
    · cases exchanged
      refine ⟨fun other same => ?_, kept⟩
      cases same
      exact upright packet received
    · rename_i questions
      have answers := answers_applied (upright packet received questions) settings.minTtl
        settings.maxTtl
      simp only at exchanged
      split at exchanged
      · split at exchanged
        · cases exchanged
          exact ⟨nofun, kept⟩
        · rename_i bytes built
          cases exchanged
          refine ⟨fun other same _ => by cases same; exact answers, { kept with stored := ?_ }⟩
          intro entry member
          rcases List.mem_append.mp member with earlier | new
          · exact kept.stored entry earlier
          · cases List.mem_singleton.mp new
            refine ⟨fun read parsed => ?_, mem_asked shape⟩
            obtain ⟨id, same⟩ := lawful _ bytes read built parsed
            exact ⟨id.trans answers.id, same ▸ answers.question⟩
      · cases exchanged
        exact ⟨fun other same _ => by cases same; exact answers, kept⟩

theorem answers_received (shape : config.calls = before ++ call :: after)
    {payload : Except String Bytes}
    (upright : Upright dns settings config (.advance before.length (.upstream payload)))
    (packet : Packet) (read : payload.bind dns.readDatagram = .ok packet)
    (questions : call.query.questions ≠ []) : Answers call.query packet := by
  cases payload with
  | error error => cases read
  | ok payload =>
      have there : config.calls[before.length]? = some call := by
        rw [shape]
        exact Pool.getElem?_moved
      change dns.readDatagram payload = .ok packet at read
      unfold SimpleDns.readDatagram at read
      split at read
      · rename_i parsed
        cases read
        exact upright call there questions packet (by rw [parsed]; rfl)
      · cases read

theorem Kept.act {choice : ExchangeChoice} (lawful : dns.Lawful) (kept : Kept dns config)
    (shape : config.calls = before ++ call :: after)
    (upright : Upright dns settings config (.advance before.length choice))
    (acted : call.act dns settings config.shared choice = some (next, moved)) :
    Kept dns ⟨next, before ++ moved :: after⟩ := by
  have sound : Sound dns config.shared.owners (asked config) call :=
    kept.sound call (by rw [shape]; simp)
  obtain ⟨query, key, stage⟩ := call
  cases stage with
  | looking =>
      cases choice with
      | hit index remaining =>
          obtain ⟨result, hit, same⟩ := Option.map_eq_some_iff.mp acted
          cases same
          exact kept.quiet shape _ fun _ packet succeeds => answers_cached kept shape hit succeeds
      | miss =>
          cases acted
          exact kept.quiet shape _ sound
      | drop =>
          cases acted
          exact kept.quiet shape _ trivial
      | advance | upstream | followed => cases acted
  | relooking =>
      cases choice with
      | hit index remaining =>
          obtain ⟨result, hit, same⟩ := Option.map_eq_some_iff.mp acted
          cases same
          exact kept.quiet shape _ fun _ packet succeeds => answers_cached kept shape hit succeeds
      | miss =>
          cases acted
          exact kept.quiet shape _ trivial
      | drop =>
          cases acted
          exact kept.quiet shape _ trivial
      | advance | upstream | followed => cases acted
  | joining =>
      cases choice with
      | advance => exact kept.join shape sound acted
      | drop =>
          cases acted
          exact kept.quiet shape _ trivial
      | hit | miss | upstream | followed => cases acted
  | following flight =>
      cases choice with
      | advance => exact kept.follow shape sound.2 acted
      | drop =>
          cases acted
          exact kept.quiet shape _ trivial
      | hit | miss | upstream | followed => cases acted
  | rechecking flight =>
      cases choice with
      | hit index remaining =>
          obtain ⟨result, hit, same⟩ := Option.map_eq_some_iff.mp acted
          refine kept.leave shape (fun packet succeeds => ?_) same
          exact answers_cached kept shape hit (Option.some.inj succeeds)
      | miss =>
          cases acted
          exact kept.quiet shape _ sound
      | drop =>
          refine kept.leave shape (fun packet same => ?_) (Option.some.inj acted)
          cases same
      | advance | upstream | followed => cases acted
  | asking flight =>
      cases choice with
      | upstream payload =>
          cases flight with
          | none =>
              cases exchanged : ExchangeCall.exchangeAndStore dns settings config.shared
                ⟨query, key, .asking none⟩ payload with
              | mk server result =>
                  simp only [ExchangeCall.act, exchanged] at acted
                  cases acted
                  obtain ⟨answers, stored⟩ :=
                    kept.exchangeAndStore lawful shape (answers_received shape upright) exchanged
                  exact stored.quiet shape _ fun questions packet same =>
                    answers packet same questions
          | some flight =>
              cases exchanged : ExchangeCall.exchangeAndStore dns settings config.shared
                ⟨query, key, .asking (some flight)⟩ payload with
              | mk server result =>
                  simp only [ExchangeCall.act, exchanged] at acted
                  cases acted
                  obtain ⟨answers, stored⟩ :=
                    kept.exchangeAndStore lawful shape (answers_received shape upright) exchanged
                  exact stored.quiet shape _ ⟨sound, fun packet same => answers packet same sound⟩
      | drop =>
          cases flight with
          | none =>
              cases acted
              exact kept.quiet shape _ trivial
          | some flight =>
              refine kept.leave shape (fun packet same => ?_) (Option.some.inj acted)
              cases same
      | advance | hit | miss | followed => cases flight <;> cases acted
  | settling flight result =>
      cases choice with
      | followed any => exact kept.settle lawful shape sound.2 (Option.some.inj acted)
      | advance | hit | miss | upstream | drop => cases acted
  | leaving leaving result =>
      cases choice with
      | advance => exact kept.goOn shape sound.1 sound.2 acted
      | hit | miss | upstream | followed | drop => cases acted
  | returned | dropped => cases choice <;> cases acted

theorem Kept.start (kept : Kept dns config) {request : ExchangeRequest}
    (upright : Upright dns settings config (.start request)) :
    Kept dns ⟨config.shared, config.calls ++ [ExchangeCall.start dns settings request]⟩ := by
  have grown : asked ⟨config.shared, config.calls ++ [ExchangeCall.start dns settings request]⟩ =
      asked config ++ [(ExchangeCall.start dns settings request).asks] := List.map_append
  have more : asked config ⊆ asked config ++ [(ExchangeCall.start dns settings request).asks] :=
    List.subset_append_left _ _
  have sames (one : AskedQuestion) (member : one ∈ asked config)
      (same : one.key = (ExchangeCall.start dns settings request).key) :
      one.question = request.query.questions.head? := by
    obtain ⟨call, present, rfl⟩ := List.mem_map.mp member
    exact upright call present same
  refine ⟨?_, kept.owners, kept.entered, fun flight channel found outcome held => ?_,
    fun entry member => ?_, ?_⟩
  · rw [grown]
    intro one member other member' same
    rcases List.mem_append.mp member with earlier | last
    · rcases List.mem_append.mp member' with earlier' | last'
      · exact kept.consistent one earlier other earlier' same
      · cases List.mem_singleton.mp last'
        exact sames one earlier same
    · cases List.mem_singleton.mp last
      rcases List.mem_append.mp member' with earlier' | last'
      · exact (sames other earlier' same.symm).symm
      · cases List.mem_singleton.mp last'
        rfl
  · rw [grown]
    exact (kept.channels flight channel found outcome held).mono id more
  · rw [grown]
    exact (kept.stored entry member).imp_right fun there => more there
  · rw [grown]
    refine Pool.forall_start (fun call member => (kept.sound call member).mono id more) ?_
    unfold ExchangeCall.start
    split
    · trivial
    · rename_i cached
      exact fun none => cached (Or.inl none)

end Step

theorem Kept.step {dns : SimpleDns} {settings : DnsSettings} {config next : ExchangeConfig}
    {event : ExchangeEvent} (lawful : dns.Lawful) (kept : Kept dns config)
    (upright : Upright dns settings config event)
    (taken : (program dns settings).step config event = some next) : Kept dns next := by
  rcases Pool.Program.step_cases taken with
    ⟨request, rfl, rfl⟩ | ⟨before, call, after, choice, server, moved, rfl, shape, acted, rfl⟩
  · exact kept.start upright
  · exact kept.act lawful shape upright acted

/-- In every run in which upstream answers the queries, and queries of one cache
key ask one question. -/
theorem matched_of_upright (dns : SimpleDns) (lawful : dns.Lawful) (settings : DnsSettings)
    (events : List ExchangeEvent)
    (upright : Machine.Within (program dns settings).step (Upright dns settings) initial events) :
    Machine.Throughout (program dns settings).step (Matched dns) initial events := by
  have kept : Machine.Throughout (program dns settings).step (Kept dns) initial events :=
    Machine.throughout_of_within (Kept dns)
      (fun here allowed taken => here.step lawful allowed taken)
      (kept_initial dns) upright
  exact Machine.throughout_mono Kept.matched kept

/-! Two responses: one to a query for the address of `a`, with the identifier 7,
and one for `b`, with the identifier 9. -/

def wanted : Packet where
  id := 7
  flags := 0x8180
  questions := [⟨[[97]], 1, 1, false⟩]
  answers := [⟨60, [1, 97, 0, 0, 1, 0, 1, 0, 4, 10, 0, 0, 1]⟩]
  nameServers := []
  additionalRecords := []

def stray : Packet where
  id := 9
  flags := 0x8180
  questions := [⟨[[98]], 1, 1, false⟩]
  answers := [⟨60, [1, 98, 0, 0, 1, 0, 1, 0, 4, 10, 0, 0, 2]⟩]
  nameServers := []
  additionalRecords := []

def wantedBytes : Bytes :=
  [0, 7, 0x81, 0x80, 0, 1, 0, 1, 0, 0, 0, 0, 1, 97, 0, 0, 1, 0, 1,
    1, 97, 0, 0, 1, 0, 1, 0, 0, 0, 60, 0, 4, 10, 0, 0, 1]

def strayBytes : Bytes :=
  [0, 9, 0x81, 0x80, 0, 1, 0, 1, 0, 0, 0, 0, 1, 98, 0, 0, 1, 0, 1,
    1, 98, 0, 0, 1, 0, 1, 0, 0, 0, 60, 0, 4, 10, 0, 0, 2]

def twoResponses : SimpleDns where
  parse bytes :=
    if bytes = wantedBytes then .ok wanted
    else if bytes = strayBytes then .ok stray
    else .error "unknown packet"
  build packet :=
    if packet = wanted then .ok wantedBytes
    else if packet = stray then .ok strayBytes
    else .error "unknown packet"
  nameText labels := if labels = [[97]] then "a" else "b"
  qtypeText _ := "TYPE(A)"

theorem lawful_twoResponses : twoResponses.Lawful := by
  intro packet bytes read built parsed
  simp only [twoResponses] at built parsed
  split at built
  · rename_i same
    cases built
    cases parsed
    rw [same]
    exact ⟨rfl, rfl⟩
  · split at built
    · rename_i same
      cases built
      cases parsed
      rw [same]
      exact ⟨rfl, rfl⟩
    · cases built

def query (id : UInt16) : Packet where
  id := id
  flags := 0x0100
  questions := [⟨[[97]], 1, 1, false⟩]
  answers := []
  nameServers := []
  additionalRecords := []

/-- One query goes upstream, and a later one is answered from the cache. -/
def asksTwice (payload : Bytes) : List ExchangeEvent :=
  [.start ⟨query 7, "out"⟩, .advance 0 .miss, .advance 0 .advance, .advance 0 .miss,
    .advance 0 (.upstream (.ok payload)), .advance 0 (.followed false), .advance 0 .advance,
    .advance 0 .advance, .start ⟨query 8, "out"⟩, .advance 1 (.hit 0 60)]

def cached : DnsSettings := ⟨true, none, none⟩

theorem matched_asksTwice :
    Machine.Throughout (program twoResponses cached).step (Matched twoResponses) initial
        (asksTwice wantedBytes) ∧
      ∃ final, Machine.run (program twoResponses cached).step initial (asksTwice wantedBytes) =
          some final ∧
        final.calls.map (·.stage) =
          [.returned (.ok wanted), .returned (.ok { wanted with id := 8 })] :=
  ⟨matched_of_upright twoResponses lawful_twoResponses cached _ (by decide), _, rfl, rfl⟩

/-- The first datagram that comes back is one for another query: it is returned,
stored, and given to the next one that asks. -/
theorem stray_is_returned_and_stored :
    ∃ final, Machine.run (program twoResponses cached).step initial (asksTwice strayBytes) =
        some final ∧
      final.calls.map (·.stage) =
          [.returned (.ok stray), .returned (.ok { stray with id := 8 })] ∧
        final.shared.stored = [⟨"out:a:TYPE(A)", 7, some ⟨[[97]], 1, 1, false⟩, strayBytes⟩] ∧
          ¬Matched twoResponses final := by
  refine ⟨_, rfl, rfl, rfl, fun matched => ?_⟩
  exact absurd (matched.stored _ (List.mem_cons_self ..) stray rfl).1 (by decide)

end DnsServer

end Dns

end QuicProxy
