import QuicProxy.Proxy.Router.Conditions

namespace QuicProxy

/-! `Router::select_out` and the name that it sniffs from a DNS query
(`src/proxy/router.rs`). -/

inductive RouterMode where
  | rule
  | proxy
  | direct
deriving DecidableEq

/-- A question of a packet that `simple_dns` has parsed. -/
structure Question where
  qname : String
  qtype : QType
deriving DecidableEq

/-- A rule with its modes, the `is_fakeip` of its DNS and its outbound.  `Rule::new`
takes an empty list of protocols for none. -/
structure RouterRule (Outbound : Type) extends Rule where
  mode : Option (List RouterMode)
  dns : Option (IpAddr → Bool)
  outbound : Outbound

def RouterRule.enabled {Outbound : Type} (rule : RouterRule Outbound) (mode : RouterMode) : Bool :=
  match rule.mode with
  | none => true
  | some modes => modes.isEmpty || modes.contains mode

structure Router (Outbound : Type) where
  mode : RouterMode
  defaultOutbound : Outbound
  rules : List (RouterRule Outbound)

structure Selection where
  originalTarget : TargetAddr
  inboundTag : String
  network : Option NetworkType
  payload : Option Bytes

structure Sniffed where
  protocol : Option String
  queryType : Option QType
  targetOverride : Option TargetAddr

/-- `simple_dns::Packet::parse` on the payload: the questions of the packet. -/
abbrev DnsParse := Bytes → Option (List Question)

def sniffDnsTarget (parse : DnsParse) (payload : Option Bytes) (originalTarget : TargetAddr) :
    Sniffed :=
  match payload.bind parse with
  | some (question :: _) =>
      ⟨some "dns", some question.qtype, some (.domain question.qname originalTarget.port)⟩
  | _ => ⟨none, none, none⟩

structure Locals where
  targetOverride : Option TargetAddr
  sniffedProtocol : Option String
  sniffedQueryType : Option QType
  hasSniffed : Bool

def Locals.initial : Locals := ⟨none, none, none, false⟩

structure Selected (Outbound : Type) where
  outbound : Outbound
  finalTarget : TargetAddr
  matchedIdx : Option Nat
  isFakeip : Bool

section

variable (parse : DnsParse) (selection : Selection)

/-- Sniffing is only for a rule with protocols, and only once. -/
def Locals.sniff (rule : Rule) (locals : Locals) : Locals :=
  if !locals.hasSniffed && !rule.protocol.isEmpty then
    let sniffed := sniffDnsTarget parse selection.payload selection.originalTarget
    ⟨sniffed.targetOverride, sniffed.protocol, sniffed.queryType, true⟩
  else locals

def Locals.effectiveTarget (locals : Locals) : TargetAddr :=
  locals.targetOverride.getD selection.originalTarget

def Locals.answer (rule : Rule) (locals : Locals) (target : TargetAddr) :
    Bool × Option TargetAddr :=
  rule.matchesTarget target selection.inboundTag selection.network locals.sniffedProtocol
    locals.sniffedQueryType

variable {Outbound : Type} (mode : RouterMode)

/-- The loop, from the rule with this index on: the rule that matches and its resolved
target, and the local variables behind the loop. -/
def matchRules : Nat → Locals → List (RouterRule Outbound) →
    Option (Nat × RouterRule Outbound × Option TargetAddr) × Locals
  | _, locals, [] => (none, locals)
  | i, locals, rule :: rules =>
      if !rule.enabled mode then matchRules (i + 1) locals rules
      else
        let locals := locals.sniff parse selection rule.toRule
        let (matched, resolvedTarget) :=
          locals.answer selection rule.toRule (locals.effectiveTarget selection)
        if matched then (some (i, rule, resolvedTarget), locals)
        else matchRules (i + 1) locals rules

def Router.selectOut (router : Router Outbound) : Selected Outbound :=
  let (matchResult, locals) :=
    matchRules parse selection router.mode 0 .initial router.rules
  match matchResult with
  | some (index, rule, resolvedTarget) =>
      { outbound := rule.outbound
        finalTarget := (resolvedTarget.or locals.targetOverride).getD selection.originalTarget
        matchedIdx := some index
        isFakeip :=
          match selection.originalTarget with
          | .ip addr => rule.dns.any (· addr.ip)
          | .domain _ _ => false }
  | none =>
      { outbound := router.defaultOutbound
        finalTarget := locals.targetOverride.getD selection.originalTarget
        matchedIdx := none
        isFakeip := false }

/-! What the destination should be. -/

/-- The original target, or the domain that the rule's reverse lookup has for it. -/
def Rule.destination (rule : Rule) (originalTarget : TargetAddr) : TargetAddr :=
  match originalTarget with
  | .ip addr =>
      match rule.reverse.bind (· addr.ip) with
      | some name => .domain name addr.port
      | none => .ip addr
  | .domain name port => .domain name port

/-- The target that a rule is about: one without protocols does not see the sniffed
name. -/
def Locals.ownTarget (rule : Rule) (locals : Locals) : TargetAddr :=
  if rule.protocol.isEmpty then selection.originalTarget else locals.effectiveTarget selection

/-- The rule that matches where each looks at its own target. -/
def ownMatch : Nat → Locals → List (RouterRule Outbound) → Option Nat
  | _, _, [] => none
  | i, locals, rule :: rules =>
      if !rule.enabled mode then ownMatch (i + 1) locals rules
      else
        let locals := locals.sniff parse selection rule.toRule
        if (locals.answer selection rule.toRule (locals.ownTarget selection rule.toRule)).1 then
          some i
        else ownMatch (i + 1) locals rules

/-- A rule without protocols sends to its destination, and so does the default
outbound; the sniffed name has no say in which rule matches. -/
structure Router.Preserves (router : Router Outbound) : Prop where
  matched : ∀ index rule, (router.selectOut parse selection).matchedIdx = some index →
    router.rules[index]? = some rule → rule.protocol = [] →
      (router.selectOut parse selection).finalTarget = rule.destination selection.originalTarget
  default : (router.selectOut parse selection).matchedIdx = none →
    (router.selectOut parse selection).finalTarget = selection.originalTarget
  choice : (router.selectOut parse selection).matchedIdx =
    ownMatch parse selection router.mode 0 .initial router.rules

/-! When the sniffed name does no harm. -/

/-- Behind a sniffed name that is not the original target, a rule with protocols
matches, and every rule without them that comes before it matches neither the original
target nor the name. -/
def Undisturbed : Locals → List (RouterRule Outbound) → Prop
  | locals, [] => locals.effectiveTarget selection = selection.originalTarget
  | locals, rule :: rules =>
      if !rule.enabled mode then Undisturbed locals rules
      else
        let locals := locals.sniff parse selection rule.toRule
        let original := locals.answer selection rule.toRule selection.originalTarget
        let effective :=
          locals.answer selection rule.toRule (locals.effectiveTarget selection)
        if rule.protocol = [] then
          (locals.effectiveTarget selection = selection.originalTarget ∧ original.1 = true) ∨
            original.1 = false ∧ effective.1 = false ∧ Undisturbed locals rules
        else effective.1 = true ∨ Undisturbed locals rules

end

section Answers

variable {parse : DnsParse} {selection : Selection} {Outbound : Type} {mode : RouterMode}
  {locals : Locals} {rule : Rule} {target : TargetAddr} {resolved : Option TargetAddr}
  {rules : List (RouterRule Outbound)}

theorem destination_of_no_reverse (absent : rule.reverse = none) (target : TargetAddr) :
    rule.destination target = target := by
  cases target with
  | ip addr => rw [Rule.destination, absent, Option.bind_none]
  | domain name port => rfl

/-- A rule that matches sends the target that it was asked for to its destination. -/
theorem destination_of_answer
    (matched : locals.answer selection rule target = (true, resolved)) :
    resolved.getD target = rule.destination target := by
  have request : rule.matchesRequest ⟨target, selection.inboundTag, selection.network,
    locals.sniffedProtocol, locals.sniffedQueryType⟩ = (true, resolved) := matched
  rcases Rule.matched_cases request with
    ⟨absent, rfl⟩ | ⟨lookup, addr, name, found, rfl, known, rfl⟩
  · exact (destination_of_no_reverse absent target).symm
  · rw [Rule.destination, found, Option.bind_some, known]
    rfl

theorem no_reverse_of_domain {name : String} {port : UInt16}
    (matched : (locals.answer selection rule (.domain name port)).1 = true) :
    rule.reverse = none := by
  have request : rule.matchesRequest ⟨.domain name port, selection.inboundTag,
      selection.network, locals.sniffedProtocol, locals.sniffedQueryType⟩ =
    (true, (locals.answer selection rule (.domain name port)).2) := Prod.ext matched rfl
  rcases Rule.matched_cases request with ⟨absent, -⟩ | ⟨lookup, addr, name, -, ip, -⟩
  · exact absent
  · cases ip

def Locals.Named (locals : Locals) : Prop :=
  ∀ target, locals.targetOverride = some target → ∃ name port, target = .domain name port

theorem sniffDnsTarget_named {payload : Option Bytes} {originalTarget : TargetAddr}
    (found : (sniffDnsTarget parse payload originalTarget).targetOverride = some target) :
    ∃ name port, target = .domain name port := by
  unfold sniffDnsTarget at found
  split at found
  · cases found
    exact ⟨_, _, rfl⟩
  · cases found

theorem Locals.Named.sniff (named : locals.Named) :
    (locals.sniff parse selection rule).Named := by
  unfold Locals.sniff
  split
  · exact fun _ => sniffDnsTarget_named
  · exact named

theorem destination_eq_iff (named : locals.Named)
    (matched : (locals.answer selection rule (locals.effectiveTarget selection)).1 = true) :
    rule.destination (locals.effectiveTarget selection) =
        rule.destination selection.originalTarget ↔
      locals.effectiveTarget selection = selection.originalTarget := by
  refine ⟨fun same => ?_, fun same => congrArg rule.destination same⟩
  cases sniffed : locals.targetOverride with
  | none => rw [Locals.effectiveTarget, sniffed, Option.getD_none]
  | some target =>
      obtain ⟨name, port, rfl⟩ := named target sniffed
      have effective : locals.effectiveTarget selection = .domain name port := by
        rw [Locals.effectiveTarget, sniffed, Option.getD_some]
      rw [effective] at matched
      have absent := no_reverse_of_domain matched
      rw [destination_of_no_reverse absent, destination_of_no_reverse absent] at same
      exact same

theorem le_ownMatch {i index : Nat}
    (found : ownMatch parse selection mode i locals rules = some index) : i ≤ index := by
  induction rules generalizing i locals with
  | nil => cases found
  | cons rule rules ih =>
      rw [ownMatch] at found
      dsimp only at found
      split at found
      · exact Nat.le_of_succ_le (ih found)
      · split at found
        · cases found
          exact Nat.le_refl _
        · exact Nat.le_of_succ_le (ih found)

theorem matchRules_found {i index : Nat} {found : RouterRule Outbound}
    (result : (matchRules parse selection mode i locals rules).1 = some (index, found, resolved)) :
    ∃ behind, index = i + behind ∧ rules[behind]? = some found := by
  induction rules generalizing i locals with
  | nil => cases result
  | cons rule rules ih =>
      have later (locals : Locals)
          (result : (matchRules parse selection mode (i + 1) locals rules).1 =
            some (index, found, resolved)) :
          ∃ behind, index = i + behind ∧ (rule :: rules)[behind]? = some found := by
        obtain ⟨behind, rfl, here⟩ := ih result
        exact ⟨behind + 1, by omega, here⟩
      rw [matchRules] at result
      dsimp only at result
      split at result
      · exact later _ result
      · split at result
        · cases result
          exact ⟨0, rfl, rfl⟩
        · exact later _ result

/-- What the claims of `Router.Preserves` come to behind the loop. -/
def Kept (selection : Selection)
    (result : Option (Nat × RouterRule Outbound × Option TargetAddr) × Locals)
    (own : Option Nat) : Prop :=
  result.1.map (·.1) = own ∧
    match result.1 with
    | none => result.2.effectiveTarget selection = selection.originalTarget
    | some (_, rule, resolved) => rule.protocol = [] →
        (resolved.or result.2.targetOverride).getD selection.originalTarget =
          rule.destination selection.originalTarget

theorem getD_or (resolved : Option TargetAddr) :
    (resolved.or locals.targetOverride).getD selection.originalTarget =
      resolved.getD (locals.effectiveTarget selection) := by
  cases resolved <;> rfl

theorem matchRules_ne (i : Nat) :
    (matchRules parse selection mode (i + 1) locals rules).1.map (·.1) ≠ some i := by
  intro same
  obtain ⟨⟨index, found, resolved⟩, here, rfl⟩ := Option.map_eq_some_iff.mp same
  obtain ⟨behind, later, -⟩ := matchRules_found here
  omega

theorem ownMatch_ne (i : Nat) : ownMatch parse selection mode (i + 1) locals rules ≠ some i :=
  fun same => Nat.not_succ_le_self i (le_ownMatch same)

theorem kept_matched {rule : RouterRule Outbound} {i : Nat} (named : locals.Named)
    (matched : locals.answer selection rule.toRule (locals.effectiveTarget selection) =
      (true, resolved)) (free : rule.protocol = []) :
    Kept selection (some (i, rule, resolved), locals) (some i) ↔
      locals.effectiveTarget selection = selection.originalTarget := by
  rw [← destination_eq_iff named (congrArg Prod.fst matched), ← destination_of_answer matched,
    ← getD_or]
  exact (and_iff_right rfl).trans (forall_prop_of_true free)

theorem kept_iff (i : Nat) (named : locals.Named) :
    Kept selection (matchRules parse selection mode i locals rules)
        (ownMatch parse selection mode i locals rules) ↔
      Undisturbed parse selection mode locals rules := by
  induction rules generalizing i locals with
  | nil => exact and_iff_right rfl
  | cons rule rules ih =>
      rw [matchRules, ownMatch, Undisturbed]
      cases rule.enabled mode with
      | false => exact ih (i + 1) named
      | true =>
          have named' : (locals.sniff parse selection rule.toRule).Named := named.sniff
          dsimp only
          generalize locals.sniff parse selection rule.toRule = locals at named'
          have later := ih (i + 1) named'
          rw [Bool.not_true, if_neg Bool.false_ne_true, if_neg Bool.false_ne_true,
            if_neg Bool.false_ne_true]
          by_cases free : rule.protocol = []
          · rw [if_pos free, Locals.ownTarget, if_pos (List.isEmpty_iff.mpr free)]
            rcases effective : locals.answer selection rule.toRule
              (locals.effectiveTarget selection) with ⟨matched, resolved⟩
            cases original : (locals.answer selection rule.toRule selection.originalTarget).1 with
            | false =>
                cases matched with
                | false =>
                    refine Iff.trans later ⟨fun undisturbed => .inr ⟨rfl, rfl, undisturbed⟩, ?_⟩
                    rintro (⟨-, ⟨⟩⟩ | ⟨-, -, undisturbed⟩)
                    exact undisturbed
                | true =>
                    refine iff_of_false (fun kept => ownMatch_ne i kept.1.symm) ?_
                    rintro (⟨-, ⟨⟩⟩ | ⟨-, ⟨⟩, -⟩)
            | true =>
                cases matched with
                | false =>
                    refine iff_of_false (fun kept => matchRules_ne i kept.1) ?_
                    rintro (⟨same, -⟩ | ⟨⟨⟩, -⟩)
                    rw [same] at effective
                    rw [effective] at original
                    cases original
                | true =>
                    refine (kept_matched named' effective free).trans
                      ⟨fun same => .inl ⟨same, rfl⟩, ?_⟩
                    rintro (⟨same, -⟩ | ⟨⟨⟩, -⟩)
                    exact same
          · have protocols : ¬rule.protocol.isEmpty = true :=
              fun none => free (List.isEmpty_iff.mp none)
            rw [if_neg free, Locals.ownTarget, if_neg protocols]
            rcases locals.answer selection rule.toRule (locals.effectiveTarget selection) with
              ⟨matched, resolved⟩
            cases matched with
            | false =>
                refine Iff.trans later ⟨.inr, ?_⟩
                rintro (⟨⟨⟩⟩ | undisturbed)
                exact undisturbed
            | true => exact iff_of_true ⟨rfl, fun none => absurd none free⟩ (.inl rfl)

theorem preserves_iff_kept (router : Router Outbound) : router.Preserves parse selection ↔
    Kept selection (matchRules parse selection router.mode 0 .initial router.rules)
      (ownMatch parse selection router.mode 0 .initial router.rules) := by
  generalize here : matchRules parse selection router.mode 0 .initial router.rules = result
  obtain ⟨found, locals⟩ := result
  rcases found with _ | ⟨index, rule, resolved⟩
  · have unmatched : (router.selectOut parse selection).matchedIdx = none ∧
        (router.selectOut parse selection).finalTarget = locals.effectiveTarget selection := by
      rw [Router.selectOut, here]
      exact ⟨rfl, rfl⟩
    constructor
    · rintro ⟨-, default, choice⟩
      exact ⟨unmatched.1.symm.trans choice, unmatched.2.symm.trans (default unmatched.1)⟩
    · rintro ⟨choice, default⟩
      refine ⟨fun index rule matched => ?_, fun _ => unmatched.2.trans default,
        unmatched.1.trans choice⟩
      rw [unmatched.1] at matched
      cases matched
  · obtain ⟨behind, position, known⟩ := matchRules_found (congrArg Prod.fst here)
    rw [Nat.zero_add] at position
    subst position
    have selected : (router.selectOut parse selection).matchedIdx = some index ∧
        (router.selectOut parse selection).finalTarget =
          (resolved.or locals.targetOverride).getD selection.originalTarget := by
      rw [Router.selectOut, here]
      exact ⟨rfl, rfl⟩
    constructor
    · rintro ⟨matched, -, choice⟩
      exact ⟨selected.1.symm.trans choice, fun free =>
        selected.2.symm.trans (matched index rule selected.1 known free)⟩
    · rintro ⟨choice, destination⟩
      refine ⟨fun _ other matched there free => ?_, fun unmatched => ?_,
        selected.1.trans choice⟩
      · cases selected.1.symm.trans matched
        cases known.symm.trans there
        exact selected.2.trans (destination free)
      · cases selected.1.symm.trans unmatched

/-- The destination is preserved if and only if no sniffed name gets in the way. -/
theorem preserves_iff_undisturbed (parse : DnsParse) (selection : Selection)
    (router : Router Outbound) : router.Preserves parse selection ↔
      Undisturbed parse selection router.mode .initial router.rules := by
  have start : Locals.initial.Named := by
    rintro _ ⟨⟩
  exact (preserves_iff_kept router).trans (kept_iff 0 start)

end Answers

/-- A query for the IPv6 addresses of `example.com`. -/
def exampleQuery : Bytes :=
  [0x12, 0x34, 0x01, 0x00, 0x00, 0x01, 0x00, 0x00, 0x00, 0x00, 0x00, 0x00,
    0x07, 0x65, 0x78, 0x61, 0x6d, 0x70, 0x6c, 0x65, 0x03, 0x63, 0x6f, 0x6d, 0x00,
    0x00, 0x1c, 0x00, 0x01]

def exampleParse : DnsParse := fun data =>
  if data = exampleQuery then some [⟨"example.com", .aaaa⟩] else none

def dnsRule : RouterRule String :=
  { inboundsTag := [], protocol := ["dns"], network := [], port := [], portRange := [],
    domain := [], domainSuffix := [], queryType := some [.a], ipCidr := [], reverse := none,
    geoip := [], mode := none, dns := none, outbound := "dns" }

def exampleSelection : Selection :=
  ⟨.ip (.v4 ⟨8, 8, 8, 8⟩ 53), "socks", some .udp, some exampleQuery⟩

/-- No rule matches, and the query for a server at 8.8.8.8 is sent to port 53 of the name
that it asks for. -/
theorem sniffedName_not_preserved :
    (Router.selectOut exampleParse exampleSelection ⟨.rule, "proxy", [dnsRule]⟩).matchedIdx = none ∧
      (Router.selectOut exampleParse exampleSelection ⟨.rule, "proxy", [dnsRule]⟩).finalTarget =
        .domain "example.com" 53 ∧
      ¬Router.Preserves exampleParse exampleSelection ⟨.rule, "proxy", [dnsRule]⟩ := by
  have unmatched : (Router.selectOut exampleParse exampleSelection
      ⟨.rule, "proxy", [dnsRule]⟩).matchedIdx = none := by
    decide
  have sent : (Router.selectOut exampleParse exampleSelection
      ⟨.rule, "proxy", [dnsRule]⟩).finalTarget = .domain "example.com" 53 := by
    decide
  refine ⟨unmatched, sent, fun preserves => ?_⟩
  have original := preserves.default unmatched
  rw [sent] at original
  cases original

end QuicProxy
