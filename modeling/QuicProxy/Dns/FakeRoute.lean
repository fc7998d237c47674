import QuicProxy.Dns.Exchange
import QuicProxy.Dns.Inverse
import QuicProxy.Proxy.Router.SelectOut

namespace QuicProxy

/-! The addresses that `FakeIPDNS` answers queries with (`src/dns/mod.rs`), and
where the router sends the connections that clients open to them
(`src/proxy/router.rs`). -/

/-! Queries. -/

def QType.ofCode (code : UInt16) : QType :=
  if code = 1 then .a else if code = 28 then .aaaa else .other code

structure AddressRecord where
  name : List Bytes
  ttl : UInt32
  address : IpAddr

structure AddressReply where
  id : UInt16
  questions : List Dns.DnsQuestion
  answers : List AddressRecord

/-- What a client has for the answers: each domain with its address. -/
def AddressReply.pairs (simple : Dns.SimpleDns) (reply : AddressReply) : List (String × IpAddr) :=
  reply.answers.map fun record => (simple.nameText record.name, record.address)

namespace FakeIpDns

variable (simple : Dns.SimpleDns) (minTtl : Option UInt64) (range : FakeIpRange) (dns : FakeIpDns)

/-- The TTL of an answer; the seconds of the configuration are cut to 32 bits. -/
def answerTtl : UInt32 := (minTtl.getD 60).toUInt32

/-- A domain that is not resolved leaves the reply without an answer. -/
def answer (faults : FakeIpFaults) (packet : Dns.Packet) (question : Dns.DnsQuestion)
    (qtype : QType) (family : Family) : Option (Except String AddressReply) × FakeIpDns :=
  match dns.resolve range none faults (simple.nameText question.qname) qtype family with
  | (none, dns) => (none, dns)
  | (some (.error _), dns) => (some (.ok ⟨packet.id, [question], []⟩), dns)
  | (some (.ok ip), dns) =>
      (some (.ok ⟨packet.id, [question], [⟨question.qname, answerTtl minTtl, ip⟩]⟩), dns)

/-- The result is `none` when the call panics. -/
def exchangeWithoutCache (faults : FakeIpFaults) (packet : Dns.Packet) :
    Option (Except String AddressReply) × FakeIpDns :=
  match packet.questions with
  | [] => (some (.error "DNS packet has no questions"), dns)
  | question :: _ =>
      match QType.ofCode question.qtype with
      | .a => dns.answer simple minTtl range faults packet question .a .v4
      | .aaaa => dns.answer simple minTtl range faults packet question .aaaa .v6
      | .other _ =>
          (some (.error ("FakeIP DNS only supports A and AAAA queries, got " ++
            simple.qtypeText question.qtype)), dns)

end FakeIpDns

/-- The DNS, and the pairs of a domain and an address that its replies have had so far. -/
structure FakeAnswers where
  dns : FakeIpDns
  handed : List (String × IpAddr)

inductive FakeAnswersEvent where
  | exchange (packet : Dns.Packet) (faults : FakeIpFaults)
  | restart (reads : Family → Option String)

namespace FakeAnswers

variable (simple : Dns.SimpleDns) (minTtl : Option UInt64) (range : FakeIpRange)

def start : FakeAnswers := ⟨.empty, []⟩

def handedBy : Option (Except String AddressReply) → List (String × IpAddr)
  | some (.ok reply) => reply.pairs simple
  | _ => []

def step (state : FakeAnswers) : FakeAnswersEvent → Option FakeAnswers
  | .exchange packet faults =>
      let (result, dns) := state.dns.exchangeWithoutCache simple minTtl range faults packet
      some ⟨dns, state.handed ++ handedBy simple result⟩
  | .restart reads => some ⟨.load reads state.dns.cache, state.handed⟩

/-- A domain that is given an address gets its `ptr` entry too, and the address is no
other domain's. -/
def StoresBoth (state : FakeAnswers) : FakeAnswersEvent → Prop
  | .exchange packet faults => ∀ question rest, packet.questions = question :: rest →
      FakeIpDns.StoresBoth range state.dns
        (.resolve (QType.ofCode question.qtype) (simple.nameText question.qname) faults)
  | .restart _ => True

end FakeAnswers

namespace FakeIpDns

variable {simple : Dns.SimpleDns} {minTtl : Option UInt64} {range : FakeIpRange}
  {dns next : FakeIpDns} {faults : FakeIpFaults} {domain : String} {qtype : QType}
  {ip : IpAddr}

theorem Call.answered {text : String} (stored : dns.Stored)
    (call : Call range dns none faults domain qtype (some (.ok text)) next) :
    ∃ ip : IpAddr, qtype.family = some ip.family ∧ text = ip.text ∧
      (dns.Resolves ip.family domain ip ∨
        Allocates range dns none faults domain qtype ip.family ip) := by
  generalize answered : some (Except.ok text) = result at call
  cases call with
  | unsupported => cases answered
  | cached supported works found =>
      cases answered
      obtain ⟨ip, rfl, rfl⟩ := stored _ domain _ found
      refine ⟨ip, supported, rfl, .inl ?_⟩
      rw [Resolves, found, Option.bind_some, parseIp_text]
  | panicked => cases answered
  | refused => cases answered
  | @allocated family ip allocates =>
      have same : ip.family = family := FakeIpRange.family_getFakeIp allocates.drawn
      subst same
      refine ⟨ip, allocates.supported, ?_, .inr allocates⟩
      simp only [store, write, Cache.set, Cache.commit, allocates.stored] at answered
      cases failed : faults.ptr with
      | some error =>
          rw [failed] at answered
          cases answered
      | none =>
          rw [failed] at answered
          cases answered
          rfl

theorem Allocates.answer {family : Family}
    (allocates : Allocates range dns none faults domain qtype family ip)
    (ptr : faults.ptr = none) :
    (dns.resolveInternal range none faults domain qtype).1 = some (.ok ip.text) := by
  simp only [resolveInternal, allocates.supported, Cache.get, allocates.misses.fresh, allocate,
    nextCursor, allocates.drawn, store, write, Cache.set, Cache.commit, allocates.stored, ptr]

/-- What is known of a domain after a call that stores both mappings: the addresses that
it had, and the answer of the call. -/
theorem resolves_iff_of_call {family : Family} {other : String} (reached : dns.Reached)
    (both : StoresBoth range dns (.resolve qtype domain faults)) :
    (dns.resolveInternal range none faults domain qtype).2.Resolves family other ip ↔
      dns.Resolves family other ip ∨
        qtype.family = some family ∧ ip.family = family ∧ other = domain ∧
          (dns.resolveInternal range none faults domain qtype).1 = some (.ok ip.text) := by
  have call := call_resolveInternal range dns none faults domain qtype
  rcases call.directory with ⟨drawn, allocates, same⟩ | ⟨none_new, same⟩
  · have answered := allocates.answer (both _ _ allocates).2.1
    have fresh := allocates.fresh_directory reached
    simp only [resolves_iff, same, answered]
    constructor
    · intro found
      by_cases own : (family, other) = (drawn.family, domain)
      · cases own
        rw [Directory.forward_record_self] at found
        cases found
        exact .inr ⟨allocates.supported, rfl, rfl, rfl⟩
      · rw [Directory.forward_record_of_ne own] at found
        exact .inl found
    · rintro (found | ⟨supported, rfl, rfl, text⟩)
      · exact Directory.forward_record_of_some fresh found
      · cases text_inj (Except.ok.inj (Option.some.inj text))
        exact Directory.forward_record_self
  · simp only [resolves_iff, same]
    refine ⟨.inl, ?_⟩
    rintro (found | ⟨supported, rfl, rfl, text⟩)
    · exact found
    · rw [text] at call
      obtain ⟨cached, family, shown, resolves | allocates⟩ := call.answered reached.stored
      · cases text_inj shown
        exact resolves
      · exact absurd allocates (none_new _ _)

theorem reverseLookup_iff (reached : dns.Reached) (inverse : dns.Inverse) :
    dns.reverseLookup none ip = some domain ↔ dns.Resolves ip.family domain ip := by
  refine ⟨fun found => ?_, inverse _ _ _⟩
  rw [reverseLookup_eq] at found
  obtain ⟨raw, leads, shown⟩ := Option.bind_eq_some_iff.mp found
  have resolves : dns.Resolves ip.family raw ip :=
    reached.linked (ip.family, raw) ip (by simp only [directory, leads, Option.map_some])
  have back := inverse _ _ _ resolves
  rw [reverseLookup_eq, leads, Option.bind_some, shown] at back
  cases back
  exact resolves

end FakeIpDns

namespace FakeAnswers

open FakeIpDns (Reached Inverse Resolves resolves_iff_of_call call_resolveInternal)

variable {simple : Dns.SimpleDns} {minTtl : Option UInt64} {range : FakeIpRange}
  {state next : FakeAnswers} {event : FakeAnswersEvent}

theorem answer_spec {dns : FakeIpDns} {faults : FakeIpFaults} {packet : Dns.Packet}
    {question : Dns.DnsQuestion} {qtype : QType} {family : Family} (stored : dns.Stored)
    (supported : qtype.family = some family) :
    (dns.answer simple minTtl range faults packet question qtype family).2 =
        (dns.resolveInternal range none faults (simple.nameText question.qname) qtype).2 ∧
      ∀ domain ip, (domain, ip) ∈ handedBy simple
          (dns.answer simple minTtl range faults packet question qtype family).1 ↔
        domain = simple.nameText question.qname ∧ ip.family = family ∧
          (dns.resolveInternal range none faults (simple.nameText question.qname) qtype).1 =
            some (.ok ip.text) := by
  have call := call_resolveInternal range dns none faults (simple.nameText question.qname) qtype
  rw [FakeIpDns.answer, FakeIpDns.resolve]
  generalize dns.resolveInternal range none faults (simple.nameText question.qname) qtype =
    outcome at call ⊢
  rcases outcome with ⟨_ | error | text, next⟩
  · simp [handedBy]
  · simp [handedBy, AddressReply.pairs]
  · obtain ⟨found, same, rfl, -⟩ := FakeIpDns.Call.answered stored call
    cases supported.symm.trans same
    simp only [parseIp_text, handedBy, AddressReply.pairs, List.map_cons, List.map_nil,
      List.mem_singleton, Prod.mk.injEq, Option.some.injEq, Except.ok.injEq, true_and]
    intro domain ip
    refine and_congr_right fun _ => ⟨?_, fun given => (text_inj given.2).symm⟩
    rintro rfl
    exact ⟨rfl, rfl⟩

theorem exchange_spec {dns : FakeIpDns} {faults : FakeIpFaults} {packet : Dns.Packet}
    {question : Dns.DnsQuestion} {rest : List Dns.DnsQuestion} (stored : dns.Stored)
    (asked : packet.questions = question :: rest) :
    (dns.exchangeWithoutCache simple minTtl range faults packet).2 =
        (dns.resolveInternal range none faults (simple.nameText question.qname)
          (QType.ofCode question.qtype)).2 ∧
      ∀ domain ip, (domain, ip) ∈ handedBy simple
          (dns.exchangeWithoutCache simple minTtl range faults packet).1 ↔
        domain = simple.nameText question.qname ∧
          (QType.ofCode question.qtype).family = some ip.family ∧
          (dns.resolveInternal range none faults (simple.nameText question.qname)
            (QType.ofCode question.qtype)).1 = some (.ok ip.text) := by
  rw [FakeIpDns.exchangeWithoutCache, asked]
  dsimp only
  cases QType.ofCode question.qtype with
  | a =>
      have spec := @answer_spec simple minTtl range dns faults packet question .a .v4 stored rfl
      simpa only [QType.family, Option.some.injEq, eq_comm] using spec
  | aaaa =>
      have spec := @answer_spec simple minTtl range dns faults packet question .aaaa .v6 stored rfl
      simpa only [QType.family, Option.some.injEq, eq_comm] using spec
  | other code => simp [QType.family, handedBy, FakeIpDns.resolveInternal]

/-- The DNS knows the pairs that it has handed out, and no others. -/
structure Known (state : FakeAnswers) : Prop where
  reached : state.dns.Reached
  inverse : state.dns.Inverse
  handed : ∀ domain ip, state.dns.Resolves ip.family domain ip ↔ (domain, ip) ∈ state.handed

theorem known_start : start.Known := by
  refine ⟨FakeIpDns.reached_empty, FakeIpDns.inverse_empty, fun domain ip => ?_⟩
  refine iff_of_false ?_ List.not_mem_nil
  rintro ⟨⟩

theorem Known.step (known : state.Known) (both : StoresBoth simple range state event)
    (taken : step simple minTtl range state event = some next) : next.Known := by
  obtain ⟨reached, inverse, handed⟩ := known
  cases event with
  | restart reads =>
      cases taken
      exact ⟨⟨reached.stored, reached.linked⟩, inverse, handed⟩
  | exchange packet faults =>
      obtain rfl : (⟨(state.dns.exchangeWithoutCache simple minTtl range faults packet).2,
        state.handed ++ handedBy simple (state.dns.exchangeWithoutCache simple minTtl range faults
          packet).1⟩ : FakeAnswers) = next := Option.some.inj taken
      rcases asked : packet.questions with _ | ⟨question, rest⟩
      · have same : state.dns.exchangeWithoutCache simple minTtl range faults packet =
            (some (.error "DNS packet has no questions"), state.dns) := by
          rw [FakeIpDns.exchangeWithoutCache, asked]
        simp only [same, handedBy, List.append_nil]
        exact ⟨reached, inverse, handed⟩
      · obtain ⟨same, answered⟩ := @exchange_spec simple minTtl range state.dns faults packet
          question rest reached.stored asked
        have both := both question rest asked
        simp only [same]
        refine ⟨?_, ?_, fun domain ip => ?_⟩
        · exact reached.call (call_resolveInternal ..)
        · exact (FakeIpDns.inverse_step_iff reached rfl).mpr ⟨inverse, both⟩
        · rw [resolves_iff_of_call reached both, handed, List.mem_append, answered]
          tauto

/-- After every run, a reverse lookup finds exactly the domain that a client has been
given the address for. -/
theorem reverseLookup_run {events : List FakeAnswersEvent} {final : FakeAnswers}
    (within : Machine.Within (step simple minTtl range) (StoresBoth simple range) start events)
    (ran : Machine.run (step simple minTtl range) start events = some final) (domain : String)
    (ip : IpAddr) :
    final.dns.reverseLookup none ip = some domain ↔ (domain, ip) ∈ final.handed := by
  have known : final.Known :=
    Machine.run_within_invariant Known (fun known both taken => known.step both taken)
      known_start within ran
  rw [FakeIpDns.reverseLookup_iff known.reached known.inverse, known.handed]

end FakeAnswers

/-! Connections to the addresses. -/

section Routes

variable {Outbound : Type} {parse : DnsParse} {selection : Selection} {mode : RouterMode}
  {locals : Locals} {earlier rest : List (RouterRule Outbound)} {router : Router Outbound}
  {rule : RouterRule Outbound} {addr : SocketAddr} {lookup : IpAddr → Option String}

theorem matchRules_append {i : Nat}
    (before : (matchRules parse selection mode i locals earlier).1 = none) :
    matchRules parse selection mode i locals (earlier ++ rest) =
      matchRules parse selection mode (i + earlier.length)
        (matchRules parse selection mode i locals earlier).2 rest := by
  induction earlier generalizing i locals with
  | nil => rfl
  | cons rule earlier ih =>
      rw [matchRules] at before
      rw [List.cons_append, matchRules, matchRules, List.length_cons,
        Nat.add_comm earlier.length, ← Nat.add_assoc]
      dsimp only at before ⊢
      split
      · next skipped =>
          rw [if_pos skipped] at before
          exact ih before
      · next enabled =>
          rw [if_neg enabled] at before
          split
          · next matched =>
              rw [if_pos matched] at before
              cases before
          · next unmatched =>
              rw [if_neg unmatched] at before
              exact ih before

theorem Router.matchedIdx_selectOut (router : Router Outbound) :
    (router.selectOut parse selection).matchedIdx =
      (matchRules parse selection router.mode 0 .initial router.rules).1.map (·.1) := by
  rw [selectOut]
  rcases matchRules parse selection router.mode 0 .initial router.rules with ⟨_ | found, locals⟩
  · rfl
  · rfl

theorem matchRules_succ (i : Nat) : matchRules parse selection mode (i + 1) locals rest =
    ((matchRules parse selection mode i locals rest).1.map fun found => (found.1 + 1, found.2),
      (matchRules parse selection mode i locals rest).2) := by
  induction rest generalizing i locals with
  | nil => rfl
  | cons rule rest ih =>
      rw [matchRules, matchRules]
      dsimp only
      split
      · exact ih (i + 1)
      · split
        · rfl
        · exact ih (i + 1)

theorem matchRules_unsniffed {i : Nat}
    (unsniffed : (matchRules parse selection mode i locals rest).2.hasSniffed = false) :
    (matchRules parse selection mode i locals rest).2 = locals := by
  induction rest generalizing i locals with
  | nil => rfl
  | cons rule rest ih =>
      have sniff (open_sniff : (locals.sniff parse selection rule.toRule).hasSniffed = false) :
          locals.sniff parse selection rule.toRule = locals := by
        unfold Locals.sniff at open_sniff ⊢
        split at open_sniff
        · cases open_sniff
        · next skipped => exact if_neg skipped
      rw [matchRules] at unsniffed ⊢
      dsimp only at unsniffed ⊢
      split
      · next disabled =>
          rw [if_pos disabled] at unsniffed
          exact ih unsniffed
      · next enabled =>
          rw [if_neg enabled] at unsniffed
          split
          · next matched =>
              rw [if_pos matched] at unsniffed
              exact sniff unsniffed
          · next unmatched =>
              rw [if_neg unmatched] at unsniffed
              have same := ih unsniffed
              rw [same] at unsniffed ⊢
              exact sniff unsniffed

/-- Where there is nothing to sniff, it does not matter whether it has been tried. -/
theorem matchRules_nothing (nothing : sniffDnsTarget parse selection.payload
    selection.originalTarget = ⟨none, none, none⟩) (mode : RouterMode)
    (rest : List (RouterRule Outbound)) (i : Nat) (tried : Bool) :
    ∃ last, matchRules parse selection mode i ⟨none, none, none, tried⟩ rest =
      ((matchRules parse selection mode i ⟨none, none, none, true⟩ rest).1,
        ⟨none, none, none, last⟩) := by
  induction rest generalizing i tried with
  | nil => exact ⟨tried, rfl⟩
  | cons rule rest ih =>
      obtain ⟨now, sniffed⟩ : ∃ now, Locals.sniff parse selection rule.toRule
          ⟨none, none, none, tried⟩ = ⟨none, none, none, now⟩ := by
        unfold Locals.sniff
        split
        · exact ⟨true, by rw [nothing]⟩
        · exact ⟨tried, rfl⟩
      have done : Locals.sniff parse selection rule.toRule ⟨none, none, none, true⟩ =
          ⟨none, none, none, true⟩ := rfl
      rw [matchRules, matchRules, sniffed, done]
      dsimp only
      have answer : Locals.answer selection rule.toRule ⟨none, none, none, now⟩
            (Locals.effectiveTarget selection ⟨none, none, none, now⟩) =
          Locals.answer selection rule.toRule ⟨none, none, none, true⟩
            (Locals.effectiveTarget selection ⟨none, none, none, true⟩) := rfl
      rw [answer]
      split
      · exact ih (i + 1) tried
      · split
        · exact ⟨now, rfl⟩
        · exact ih (i + 1) now

/-- The connection comes to a rule of which all but the reverse lookup holds: no rule
before it matches, and no name has been sniffed in the place of the address. -/
structure ComesTo (parse : DnsParse) (selection : Selection) (router : Router Outbound)
    (earlier : List (RouterRule Outbound)) (rule : RouterRule Outbound)
    (later : List (RouterRule Outbound)) (addr : SocketAddr) : Prop where
  original : selection.originalTarget = .ip addr
  rules : router.rules = earlier ++ rule :: later
  before : (matchRules parse selection router.mode 0 .initial earlier).1 = none
  enabled : rule.enabled router.mode = true
  plain : ((matchRules parse selection router.mode 0 .initial earlier).2.sniff parse selection
    rule.toRule).targetOverride = none
  others : rule.comesToReverse
    { target := .ip addr
      inboundTag := selection.inboundTag
      network := selection.network
      protocol := ((matchRules parse selection router.mode 0 .initial earlier).2.sniff parse
        selection rule.toRule).sniffedProtocol
      queryType := ((matchRules parse selection router.mode 0 .initial earlier).2.sniff parse
        selection rule.toRule).sniffedQueryType } = true

namespace ComesTo

variable {later : List (RouterRule Outbound)}

theorem matchRules_eq (comes : ComesTo parse selection router earlier rule later addr)
    (reverse : rule.reverse = some lookup) : ∃ locals,
    locals = (matchRules parse selection router.mode 0 .initial earlier).2.sniff parse selection
        rule.toRule ∧
      matchRules parse selection router.mode 0 .initial router.rules =
        match lookup addr.ip with
        | some name => (some (earlier.length, rule, some (.domain name addr.port)), locals)
        | none => matchRules parse selection router.mode (earlier.length + 1) locals later := by
  obtain ⟨original, rules, before, enabled, plain, others⟩ := comes
  have loop := @matchRules_append _ parse selection router.mode .initial earlier (rule :: later) 0
    before
  rw [matchRules, enabled, Nat.zero_add, ← rules] at loop
  dsimp only at loop
  refine ⟨_, rfl, loop.trans ?_⟩
  generalize (matchRules parse selection router.mode 0 .initial earlier).2.sniff parse selection
    rule.toRule = locals at plain others
  have effective : locals.effectiveTarget selection = .ip addr := by
    rw [Locals.effectiveTarget, plain, Option.getD_none, original]
  have request := @Rule.matchesRequest_eq rule.toRule ⟨.ip addr, selection.inboundTag,
    selection.network, locals.sniffedProtocol, locals.sniffedQueryType⟩
  rw [if_pos others, reverse] at request
  dsimp only at request
  rw [effective]
  cases found : lookup addr.ip with
  | some name =>
      rw [found] at request
      have answer : locals.answer selection rule.toRule (.ip addr) =
          (true, some (.domain name addr.port)) := request
      rw [answer]
      rfl
  | none =>
      rw [found] at request
      have answer : locals.answer selection rule.toRule (.ip addr) = (false, none) := request
      rw [answer]
      rfl

theorem selectOut_found (comes : ComesTo parse selection router earlier rule later addr)
    (reverse : rule.reverse = some lookup) {name : String} (found : lookup addr.ip = some name) :
    (router.selectOut parse selection).matchedIdx = some earlier.length ∧
      (router.selectOut parse selection).finalTarget = .domain name addr.port := by
  obtain ⟨locals, -, loop⟩ := comes.matchRules_eq reverse
  rw [found] at loop
  rw [Router.selectOut, loop]
  exact ⟨rfl, rfl⟩

/-- What the earlier rules and this one have sniffed for the rules behind is what the
earlier ones have. -/
theorem behind_eq (comes : ComesTo parse selection router earlier rule later addr) (i : Nat) :
    ∃ last,
      matchRules parse selection router.mode i
          ((matchRules parse selection router.mode 0 .initial earlier).2.sniff parse selection
            rule.toRule) later =
        ((matchRules parse selection router.mode i
            (matchRules parse selection router.mode 0 .initial earlier).2 later).1, last) ∧
      last.targetOverride = (matchRules parse selection router.mode i
        (matchRules parse selection router.mode 0 .initial earlier).2 later).2.targetOverride := by
  have plain := comes.plain
  have unsniffed := @matchRules_unsniffed _ parse selection router.mode .initial earlier 0
  generalize (matchRules parse selection router.mode 0 .initial earlier).2 = locals
    at plain unsniffed
  unfold Locals.sniff at plain ⊢
  split
  · next tries =>
      rw [if_pos tries] at plain
      obtain rfl : locals = .initial := unsniffed (by
        cases flag : locals.hasSniffed with
        | false => rfl
        | true => rw [flag] at tries; cases tries)
      have nothing : sniffDnsTarget parse selection.payload selection.originalTarget =
          ⟨none, none, none⟩ := by
        dsimp only at plain
        unfold sniffDnsTarget at plain ⊢
        split
        · next found => rw [found] at plain; cases plain
        · rfl
      obtain ⟨last, same⟩ := matchRules_nothing nothing router.mode later i false
      rw [nothing, Locals.initial, same]
      obtain ⟨flag, true_same⟩ := matchRules_nothing nothing router.mode later i true
      exact ⟨_, rfl, congrArg (fun result => result.2.targetOverride) true_same⟩
  · exact ⟨_, rfl, rfl⟩

/-- Where the lookup finds nothing, the connection goes where it would go without the
rule. -/
theorem selectOut_without (comes : ComesTo parse selection router earlier rule later addr)
    (reverse : rule.reverse = some lookup) (unknown : lookup addr.ip = none) :
    router.selectOut parse selection =
      let without := Router.selectOut parse selection { router with rules := earlier ++ later }
      { without with matchedIdx := without.matchedIdx.map (· + 1) } := by
  obtain ⟨locals, rfl, loop⟩ := comes.matchRules_eq reverse
  obtain ⟨last, same, override⟩ := comes.behind_eq (earlier.length)
  have rest := @matchRules_append _ parse selection router.mode .initial earlier later 0 comes.before
  rw [Nat.zero_add] at rest
  rw [unknown] at loop
  dsimp only at loop
  rw [matchRules_succ, same] at loop
  simp only [Router.selectOut, loop, rest]
  generalize matchRules parse selection router.mode earlier.length
    (matchRules parse selection router.mode 0 .initial earlier).2 later = result at override
  obtain ⟨_ | ⟨index, found, resolved⟩, behind⟩ := result
  · dsimp only at override ⊢
    rw [override]
    rfl
  · dsimp only [Option.map_some] at override ⊢
    rw [override]

/-- Such a connection is sent to a domain if and only if the lookup finds it. -/
theorem selectOut_iff (comes : ComesTo parse selection router earlier rule later addr)
    (reverse : rule.reverse = some lookup) (domain : String) :
    ((router.selectOut parse selection).matchedIdx = some earlier.length ∧
        (router.selectOut parse selection).finalTarget = .domain domain addr.port) ↔
      lookup addr.ip = some domain := by
  constructor
  · rintro ⟨index, target⟩
    cases found : lookup addr.ip with
    | none =>
        obtain ⟨locals, -, loop⟩ := comes.matchRules_eq reverse
        rw [found] at loop
        rw [Router.matchedIdx_selectOut, loop] at index
        exact absurd index (matchRules_ne earlier.length)
    | some name =>
        have sent := (comes.selectOut_found reverse found).2
        rw [target] at sent
        cases sent
        rfl
  · exact comes.selectOut_found reverse

end ComesTo

/-- After every run of queries and restarts in which each new address gets both its
mappings, a connection that comes to a rule with the reverse lookup of the DNS goes to
a domain if and only if a reply has given the address for it, and one whose address no
reply has had goes where it would go without the rule. -/
theorem selectOut_run_iff (parse : DnsParse) (selection : Selection) (router : Router Outbound)
    {later : List (RouterRule Outbound)} {simple : Dns.SimpleDns} {minTtl : Option UInt64}
    {range : FakeIpRange} {events : List FakeAnswersEvent} {final : FakeAnswers}
    (within : Machine.Within (FakeAnswers.step simple minTtl range)
      (FakeAnswers.StoresBoth simple range) .start events)
    (ran : Machine.run (FakeAnswers.step simple minTtl range) .start events = some final)
    (reverse : rule.reverse = some (final.dns.reverseLookup none))
    (comes : ComesTo parse selection router earlier rule later addr) :
    (∀ domain, ((router.selectOut parse selection).matchedIdx = some earlier.length ∧
        (router.selectOut parse selection).finalTarget = .domain domain addr.port) ↔
      (domain, addr.ip) ∈ final.handed) ∧
    ((∀ domain, (domain, addr.ip) ∉ final.handed) →
      router.selectOut parse selection =
        let without := Router.selectOut parse selection { router with rules := earlier ++ later }
        { without with matchedIdx := without.matchedIdx.map (· + 1) }) := by
  have lookup (domain : String) := FakeAnswers.reverseLookup_run within ran domain addr.ip
  refine ⟨fun domain => ?_, fun never => ?_⟩
  · rw [comes.selectOut_iff reverse, lookup]
  · refine comes.selectOut_without reverse ?_
    cases found : final.dns.reverseLookup none addr.ip with
    | none => rfl
    | some domain => exact absurd ((lookup domain).mp found) (never domain)

end Routes

def exampleLabels : List Bytes := [[101, 120, 97, 109, 112, 108, 101], [111, 114, 103]]

def exampleNames : Dns.SimpleDns where
  parse _ := .error "incomplete"
  build _ := .ok []
  nameText labels := if labels = exampleLabels then "example.org" else ""
  qtypeText _ := "TYPE(A)"

def exampleOrg : Dns.Packet where
  id := 7
  flags := 0
  questions := [⟨exampleLabels, 1, 1, false⟩]
  answers := []
  nameServers := []
  additionalRecords := []

def askedBefore : List FakeAnswersEvent :=
  [.exchange exampleOrg FakeIpDns.noFaults, .restart fun _ => some "disk failure"]

theorem within_askedBefore :
    Machine.Within (FakeAnswers.step exampleNames none FakeIpDns.defaultRange)
      (FakeAnswers.StoresBoth exampleNames FakeIpDns.defaultRange) .start askedBefore := by
  refine ⟨?_, fun next taken => ⟨trivial, fun last again => trivial⟩⟩
  rintro question rest ⟨⟩ family ip allocates
  refine ⟨by decide +kernel, rfl, ?_⟩
  rintro other ⟨⟩

def exampleConnection (last : UInt8) : Selection :=
  ⟨.ip (.v4 ⟨198, 18, 0, last⟩ 443), "socks", some .tcp, none⟩

def reverseRule (lookup : IpAddr → Option String) : RouterRule String :=
  { inboundsTag := [], protocol := [], network := [], port := [], portRange := [],
    domain := [], domainSuffix := [], queryType := none, ipCidr := [], reverse := some lookup,
    geoip := [], mode := none, dns := none, outbound := "proxy" }

def exampleRouter (lookup : IpAddr → Option String) : Router String :=
  ⟨.rule, "direct", [reverseRule lookup]⟩

/-- A client that has the address from before a restart still comes to the domain, and
the address behind it goes to the default outbound as it is. -/
theorem selectOut_run_askedBefore : ∃ final : FakeAnswers,
    final.handed = [("example.org", .v4 ⟨198, 18, 0, 0⟩)] ∧
      (((exampleRouter (final.dns.reverseLookup none)).selectOut exampleParse
          (exampleConnection 0)).matchedIdx = some 0 ∧
        ((exampleRouter (final.dns.reverseLookup none)).selectOut exampleParse
          (exampleConnection 0)).finalTarget = .domain "example.org" 443) ∧
      (exampleRouter (final.dns.reverseLookup none)).selectOut exampleParse
          (exampleConnection 1) =
        ⟨"direct", .ip (.v4 ⟨198, 18, 0, 1⟩ 443), none, false⟩ := by
  obtain ⟨final, ran, handed⟩ : ∃ final, Machine.run
      (FakeAnswers.step exampleNames none FakeIpDns.defaultRange) .start askedBefore = some final ∧
        final.handed = [("example.org", .v4 ⟨198, 18, 0, 0⟩)] :=
    ⟨_, rfl, by decide +kernel⟩
  have comes (last : UInt8) : ComesTo exampleParse (exampleConnection last)
      (exampleRouter (final.dns.reverseLookup none)) [] (reverseRule (final.dns.reverseLookup none))
        [] (.v4 ⟨198, 18, 0, last⟩ 443) :=
    ⟨rfl, rfl, rfl, rfl, rfl, rfl⟩
  refine ⟨final, handed, ?_, ?_⟩
  · refine ((selectOut_run_iff exampleParse (exampleConnection 0) _ within_askedBefore ran
      rfl (comes 0)).1 "example.org").mpr ?_
    rw [handed]
    exact List.mem_cons_self
  · refine (selectOut_run_iff exampleParse (exampleConnection 1) _ within_askedBefore ran rfl
      (comes 1)).2 fun domain given => ?_
    rw [handed, List.mem_singleton] at given
    cases given

end QuicProxy
