import QuicProxy.Proxy.Router.Rule

namespace QuicProxy

/-! What the conditions of a routing rule ask for, and whether `Rule::matches` answers
as they say (`src/proxy/router/rule.rs`). -/

/-- Equal up to ASCII case, or a subdomain. -/
def EqualOrBelow (name suffix : String) : Prop :=
  eqIgnoreAsciiCase (asBytes name) (asBytes suffix) = true ∨
    ∃ front, eqIgnoreAsciiCase (asBytes name) (front ++ 46 :: asBytes suffix) = true

/-- An empty suffix has no domain in it. -/
def InSuffix (name suffix : String) : Prop := suffix ≠ "" ∧ EqualOrBelow name suffix

section Suffix

variable {name suffix : String} {first second front back : Bytes}

theorem eqIgnoreAsciiCase_iff : eqIgnoreAsciiCase first second = true ↔
    first.map (fun byte => if 65 ≤ byte ∧ byte ≤ 90 then byte + 32 else byte) =
      second.map (fun byte => if 65 ≤ byte ∧ byte ≤ 90 then byte + 32 else byte) := beq_iff_eq

theorem length_of_eqIgnoreAsciiCase (same : eqIgnoreAsciiCase first second = true) :
    first.length = second.length := by
  have lengths := congrArg List.length (eqIgnoreAsciiCase_iff.mp same)
  rw [List.length_map, List.length_map] at lengths
  exact lengths

theorem eqIgnoreAsciiCase_append_left :
    eqIgnoreAsciiCase (front ++ first) (front ++ second) = true ↔
      eqIgnoreAsciiCase first second = true := by
  rw [eqIgnoreAsciiCase_iff, eqIgnoreAsciiCase_iff, List.map_append, List.map_append,
    List.append_right_inj]

theorem lower_dot {byte : UInt8}
    (dot : (if 65 ≤ byte ∧ byte ≤ 90 then byte + 32 else byte) = 46) : byte = 46 := by
  split at dot
  · next upper =>
      have low := UInt8.le_iff_toNat_le.mp upper.1
      have high := UInt8.le_iff_toNat_le.mp upper.2
      have sum := congrArg UInt8.toNat dot
      rw [UInt8.toNat_add] at sum
      simp only [UInt8.reduceToNat] at low high sum
      omega
  · exact dot

theorem eqIgnoreAsciiCase_dot (same : eqIgnoreAsciiCase first (front ++ 46 :: back) = true) :
    first[front.length]? = some 46 ∧
      eqIgnoreAsciiCase (first.drop (front.length + 1)) back = true := by
  rw [eqIgnoreAsciiCase_iff] at same ⊢
  constructor
  · have here := congrArg (·[front.length]?) same
    simp only [List.getElem?_map, List.getElem?_append_right (Nat.le_refl _), Nat.sub_self,
      List.getElem?_cons_zero, Option.map_some] at here
    obtain ⟨byte, found, dot⟩ := Option.map_eq_some_iff.mp here
    rw [found, lower_dot (dot.trans (by decide))]
  · have cut : (front ++ 46 :: back).drop (front.length + 1) = back := by
      rw [← List.drop_drop, List.drop_left]
      rfl
    have behind := congrArg (List.drop (front.length + 1)) same
    rw [← List.map_drop, ← List.map_drop, cut] at behind
    exact behind

theorem asBytes_eq_nil : asBytes suffix = [] ↔ suffix = "" := by
  constructor
  · intro nothing
    have whole := fromUtf8Lossy_asBytes suffix
    rw [nothing] at whole
    exact whole.symm
  · rintro rfl
    rfl

theorem matchesSuffix_iff {name suffix : Bytes} (nonempty : suffix ≠ []) :
    (¬name.length < suffix.length ∧
      (eqIgnoreAsciiCase (name.drop (name.length - suffix.length)) suffix &&
        (name.length - suffix.length == 0 ||
          name[name.length - suffix.length - 1]? == some 46)) = true) ↔
      eqIgnoreAsciiCase name suffix = true ∨
        ∃ front, eqIgnoreAsciiCase name (front ++ 46 :: suffix) = true := by
  have positive := List.length_pos_iff.mpr nonempty
  rw [Bool.and_eq_true, Bool.or_eq_true, beq_iff_eq, beq_iff_eq]
  constructor
  · rintro ⟨-, ends, boundary⟩
    by_cases whole : name.length - suffix.length = 0
    · rw [whole] at ends
      exact .inl ends
    · obtain ⟨inside, dot⟩ := List.getElem?_eq_some_iff.mp (boundary.resolve_left whole)
      have split : name = name.take (name.length - suffix.length - 1) ++
          46 :: name.drop (name.length - suffix.length) := by
        conv => lhs; rw [← List.take_append_drop (name.length - suffix.length - 1) name]
        rw [List.drop_eq_getElem_cons inside, dot,
          show name.length - suffix.length - 1 + 1 = name.length - suffix.length by omega]
      have below : eqIgnoreAsciiCase (name.take (name.length - suffix.length - 1) ++
          46 :: name.drop (name.length - suffix.length))
          (name.take (name.length - suffix.length - 1) ++ 46 :: suffix) = true := by
        rw [eqIgnoreAsciiCase_append_left, eqIgnoreAsciiCase_iff, List.map_cons, List.map_cons,
          eqIgnoreAsciiCase_iff.mp ends]
      rw [← split] at below
      exact .inr ⟨_, below⟩
  · rintro (whole | ⟨front, below⟩)
    · have same := length_of_eqIgnoreAsciiCase whole
      rw [same, Nat.sub_self]
      exact ⟨Nat.lt_irrefl _, whole, .inl rfl⟩
    · have size := length_of_eqIgnoreAsciiCase below
      rw [List.length_append, List.length_cons] at size
      obtain ⟨dot, ends⟩ := eqIgnoreAsciiCase_dot below
      have start : name.length - suffix.length = front.length + 1 := by omega
      rw [start]
      exact ⟨by omega, ends, .inr dot⟩

theorem domainMatchesSuffix_iff :
    domainMatchesSuffix name suffix = true ↔ InSuffix name suffix := by
  unfold domainMatchesSuffix InSuffix EqualOrBelow
  dsimp only
  by_cases empty : asBytes suffix = []
  · rw [empty]
    exact iff_of_false Bool.false_ne_true fun holds => holds.1 (asBytes_eq_nil.mp empty)
  rw [← matchesSuffix_iff empty, and_iff_right fun same => empty (asBytes_eq_nil.mpr same)]
  simp only [List.isEmpty_eq_false_iff.mpr empty, Bool.false_or, decide_eq_true_iff]
  split
  · next short => exact iff_of_false Bool.false_ne_true fun holds => holds.1 short
  · next long => exact (and_iff_right long).symm

end Suffix

structure Request where
  target : TargetAddr
  inboundTag : String
  network : Option NetworkType
  protocol : Option String
  queryType : Option QType

namespace Rule

def matchesRequest (rule : Rule) (request : Request) : Bool × Option TargetAddr :=
  rule.matchesTarget request.target request.inboundTag request.network request.protocol
    request.queryType

/-- Every condition that the rule has, its geoip lists apart; `inSuffix` says when a
domain is within a suffix. -/
structure Holds (inSuffix : String → String → Prop) (rule : Rule) (request : Request) : Prop where
  inbounds : rule.inboundsTag ≠ [] → request.inboundTag ∈ rule.inboundsTag
  protocol : rule.protocol ≠ [] → ∃ sniffed ∈ rule.protocol, request.protocol = some sniffed
  network : rule.network ≠ [] → ∃ used ∈ rule.network, request.network = some used
  port : rule.port ≠ [] ∨ rule.portRange ≠ [] → request.target.port ∈ rule.port ∨
    ∃ range ∈ rule.portRange, range.1 ≤ request.target.port ∧ request.target.port ≤ range.2
  domain : rule.domain ≠ [] ∨ rule.domainSuffix ≠ [] → ∃ name port,
    request.target = .domain name port ∧
      ((∃ domain ∈ rule.domain, eqIgnoreAsciiCase (asBytes name) (asBytes domain) = true) ∨
        ∃ suffix ∈ rule.domainSuffix, inSuffix name suffix)
  queryType : ∀ types, rule.queryType = some types →
    ∃ asked ∈ types, request.queryType = some asked
  ipCidr : rule.ipCidr ≠ [] → ∃ addr, request.target = .ip addr ∧
    ∃ cidr ∈ rule.ipCidr, cidr addr.ip = true
  reverse : ∀ lookup, rule.reverse = some lookup →
    ∃ addr name, request.target = .ip addr ∧ lookup addr.ip = some name

def HoldsGeoip (rule : Rule) (request : Request) : Prop :=
  rule.geoip ≠ [] → ∃ geoip ∈ rule.geoip, geoip.lookup request.target = .ok true

section Conditions

variable {rule : Rule} {request : Request}

theorem listCondition_iff {α : Type} [BEq α] [LawfulBEq α] {list : List α} {value : Option α} :
    listCondition list value = true ↔ (list ≠ [] → ∃ item ∈ list, value = some item) := by
  rw [listCondition, Bool.or_eq_true, List.isEmpty_iff, or_iff_not_imp_left, Option.any_eq_true]
  refine imp_congr_right fun _ => ⟨?_, ?_⟩
  · rintro ⟨item, found, member⟩
    exact ⟨item, List.contains_iff_mem.mp member, found⟩
  · rintro ⟨item, member, found⟩
    exact ⟨item, found, List.contains_iff_mem.mpr member⟩

theorem inboundsMatch_iff {inboundTag : String} : rule.inboundsMatch inboundTag = true ↔
    (rule.inboundsTag ≠ [] → inboundTag ∈ rule.inboundsTag) := by
  rw [inboundsMatch, listCondition_iff]
  refine imp_congr_right fun _ => ⟨?_, fun member => ⟨inboundTag, member, rfl⟩⟩
  rintro ⟨_, member, ⟨⟩⟩
  exact member

theorem portMatch_iff {target : TargetAddr} : rule.portMatch target = true ↔
    (rule.port ≠ [] ∨ rule.portRange ≠ [] → target.port ∈ rule.port ∨
      ∃ range ∈ rule.portRange, range.1 ≤ target.port ∧ target.port ≤ range.2) := by
  rw [portMatch, Bool.or_assoc, Bool.or_eq_true, Bool.and_eq_true, List.isEmpty_iff,
    List.isEmpty_iff, Bool.or_eq_true, List.contains_iff_mem, List.any_eq_true,
    or_iff_not_imp_left, not_and_or]
  simp only [Bool.and_eq_true, decide_eq_true_iff, ne_eq]

theorem domainMatch_iff {target : TargetAddr} : rule.domainMatch target = true ↔
    (rule.domain ≠ [] ∨ rule.domainSuffix ≠ [] → ∃ name port, target = .domain name port ∧
      ((∃ domain ∈ rule.domain, eqIgnoreAsciiCase (asBytes name) (asBytes domain) = true) ∨
        ∃ suffix ∈ rule.domainSuffix, InSuffix name suffix)) := by
  unfold domainMatch
  rw [Bool.or_eq_true, Bool.and_eq_true, List.isEmpty_iff, List.isEmpty_iff,
    or_iff_not_imp_left, not_and_or]
  refine imp_congr_right fun _ => ?_
  cases target with
  | ip addr =>
      refine iff_of_false Bool.false_ne_true ?_
      rintro ⟨name, port, ⟨⟩, -⟩
  | domain name port =>
      simp only [Bool.or_eq_true, List.any_eq_true, domainMatchesSuffix_iff]
      refine ⟨fun holds => ⟨name, port, rfl, holds⟩, ?_⟩
      rintro ⟨_, _, ⟨⟩, holds⟩
      exact holds

theorem queryTypeMatch_iff {queryType : Option QType} : rule.queryTypeMatch queryType = true ↔
    ∀ types, rule.queryType = some types → ∃ asked ∈ types, queryType = some asked := by
  rw [queryTypeMatch]
  cases rule.queryType with
  | none => exact iff_of_true rfl (by rintro _ ⟨⟩)
  | some types =>
      dsimp only
      rw [Option.any_eq_true]
      constructor
      · rintro ⟨asked, found, member⟩ _ ⟨⟩
        exact ⟨asked, List.contains_iff_mem.mp member, found⟩
      · intro holds
        obtain ⟨asked, member, found⟩ := holds types rfl
        exact ⟨asked, found, List.contains_iff_mem.mpr member⟩

theorem ipCidrMatch_iff {target : TargetAddr} : rule.ipCidrMatch target = true ↔
    (rule.ipCidr ≠ [] → ∃ addr, target = .ip addr ∧
      ∃ cidr ∈ rule.ipCidr, cidr addr.ip = true) := by
  unfold ipCidrMatch
  rw [Bool.or_eq_true, List.isEmpty_iff, or_iff_not_imp_left]
  refine imp_congr_right fun _ => ?_
  cases target with
  | ip addr =>
      dsimp only
      rw [List.any_eq_true]
      refine ⟨fun holds => ⟨addr, rfl, holds⟩, ?_⟩
      rintro ⟨_, ⟨⟩, holds⟩
      exact holds
  | domain name port =>
      refine iff_of_false Bool.false_ne_true ?_
      rintro ⟨addr, ⟨⟩, -⟩

theorem geoipMatch_iff : rule.geoipMatch request.target = true ↔ rule.HoldsGeoip request := by
  rw [geoipMatch, HoldsGeoip, Bool.or_eq_true, List.isEmpty_iff, or_iff_not_imp_left,
    List.any_eq_true]
  refine imp_congr_right fun _ => exists_congr fun geoip => and_congr_right fun _ => ?_
  rcases geoip.lookup request.target with error | found
  · exact iff_of_false Bool.false_ne_true (by rintro ⟨⟩)
  · exact ⟨fun same => congrArg Except.ok same, Except.ok.inj⟩

/-- The conditions that come before the reverse lookup. -/
def comesToReverse (rule : Rule) (request : Request) : Bool :=
  rule.inboundsMatch request.inboundTag && rule.protocolMatch request.protocol &&
    rule.networkMatch request.network && rule.portMatch request.target &&
      rule.domainMatch request.target && rule.queryTypeMatch request.queryType &&
        rule.ipCidrMatch request.target

theorem matchesRequest_eq : rule.matchesRequest request =
    if rule.comesToReverse request then
      match rule.reverse with
      | some reverse =>
          match request.target with
          | .ip addr =>
              match reverse addr.ip with
              | some name => (true, some (.domain name addr.port))
              | none => (false, none)
          | .domain _ _ => (false, none)
      | none => if !rule.geoipMatch request.target then (false, none) else (true, none)
    else (false, none) := by
  rw [matchesRequest, matchesTarget, comesToReverse]
  cases rule.inboundsMatch request.inboundTag
  · rfl
  cases rule.protocolMatch request.protocol
  · rfl
  cases rule.networkMatch request.network
  · rfl
  cases rule.portMatch request.target
  · rfl
  cases rule.domainMatch request.target
  · rfl
  cases rule.queryTypeMatch request.queryType
  · rfl
  cases rule.ipCidrMatch request.target
  · rfl
  rfl

/-- How a rule matches: without a reverse lookup, or with the name that it finds. -/
theorem matched_cases {resolved : Option TargetAddr}
    (matched : rule.matchesRequest request = (true, resolved)) :
    (rule.reverse = none ∧ resolved = none) ∨ ∃ lookup addr name, rule.reverse = some lookup ∧
      request.target = .ip addr ∧ lookup addr.ip = some name ∧
        resolved = some (.domain name addr.port) := by
  rw [matchesRequest_eq] at matched
  split at matched
  · split at matched
    · next lookup found =>
        split at matched
        · next addr ip =>
            split at matched <;> cases matched
            next name known => exact .inr ⟨lookup, addr, name, found, ip, known, rfl⟩
        · cases matched
    · next absent =>
        split at matched <;> cases matched
        exact .inl ⟨absent, rfl⟩
  · cases matched

theorem comesToReverse_iff : rule.comesToReverse request = true ↔
    (rule.inboundsMatch request.inboundTag = true ∧ rule.protocolMatch request.protocol = true ∧
      rule.networkMatch request.network = true ∧ rule.portMatch request.target = true ∧
        rule.domainMatch request.target = true ∧ rule.queryTypeMatch request.queryType = true ∧
          rule.ipCidrMatch request.target = true) := by
  simp only [comesToReverse, Bool.and_eq_true, and_assoc]

theorem holds_iff : rule.Holds InSuffix request ↔ rule.comesToReverse request = true ∧
    ∀ lookup, rule.reverse = some lookup →
      ∃ addr name, request.target = .ip addr ∧ lookup addr.ip = some name := by
  rw [comesToReverse_iff]
  constructor
  · rintro ⟨inbounds, protocol, network, port, domain, queryType, ipCidr, reverse⟩
    exact ⟨⟨inboundsMatch_iff.mpr inbounds, listCondition_iff.mpr protocol,
      listCondition_iff.mpr network, portMatch_iff.mpr port, domainMatch_iff.mpr domain,
      queryTypeMatch_iff.mpr queryType, ipCidrMatch_iff.mpr ipCidr⟩, reverse⟩
  · rintro ⟨⟨inbounds, protocol, network, port, domain, queryType, ipCidr⟩, reverse⟩
    exact ⟨inboundsMatch_iff.mp inbounds, listCondition_iff.mp protocol,
      listCondition_iff.mp network, portMatch_iff.mp port, domainMatch_iff.mp domain,
      queryTypeMatch_iff.mp queryType, ipCidrMatch_iff.mp ipCidr, reverse⟩

theorem matches_of_holds (holds : rule.Holds InSuffix request)
    (geoip : rule.HoldsGeoip request) : (rule.matchesRequest request).1 = true := by
  obtain ⟨comes, reverse⟩ := holds_iff.mp holds
  rw [matchesRequest_eq, if_pos comes]
  cases found : rule.reverse with
  | none =>
      dsimp only
      rw [geoipMatch_iff.mpr geoip]
      rfl
  | some lookup =>
      obtain ⟨addr, name, ip, known⟩ := reverse lookup found
      rw [ip]
      dsimp only
      rw [known]

theorem holds_of_matches (matched : (rule.matchesRequest request).1 = true) :
    rule.Holds InSuffix request ∧ (rule.reverse = none → rule.HoldsGeoip request) := by
  rw [matchesRequest_eq] at matched
  split at matched
  · next comes =>
      split at matched
      · next lookup found =>
          split at matched
          · next addr ip =>
              split at matched
              · next name known =>
                  refine ⟨holds_iff.mpr ⟨comes, fun other same => ?_⟩, fun absent => ?_⟩
                  · cases found.symm.trans same
                    exact ⟨addr, name, ip, known⟩
                  · cases found.symm.trans absent
              · cases matched
          · cases matched
      · next absent =>
          split at matched
          · cases matched
          · next inside =>
              refine ⟨holds_iff.mpr ⟨comes, fun other same => ?_⟩, fun _ => ?_⟩
              · cases absent.symm.trans same
              · rw [Bool.not_eq_true'] at inside
                exact geoipMatch_iff.mp (Bool.of_not_eq_false inside)
  · cases matched

theorem matches_of_resolved {resolved : TargetAddr}
    (found : (rule.matchesRequest request).2 = some resolved) :
    (rule.matchesRequest request).1 = true := by
  rw [matchesRequest_eq] at found ⊢
  split at found
  · next comes =>
      rw [if_pos comes]
      split at found
      · split at found
        · split at found
          · rfl
          · cases found
        · cases found
      · split at found <;> cases found
  · cases found

end Conditions

/-- A rule matches where all its conditions hold, and a rule that matches holds, its
geoip lists where it has no reverse lookup; only a match has a resolved target. -/
theorem matches_conjunction (rule : Rule) (request : Request) :
    (rule.Holds InSuffix request → rule.HoldsGeoip request →
      (rule.matchesRequest request).1 = true) ∧
    ((rule.matchesRequest request).1 = true →
      rule.Holds InSuffix request ∧ (rule.reverse = none → rule.HoldsGeoip request)) ∧
    ∀ resolved, (rule.matchesRequest request).2 = some resolved →
      (rule.matchesRequest request).1 = true :=
  ⟨matches_of_holds, holds_of_matches, fun _ => matches_of_resolved⟩

def reverseRule : Rule where
  inboundsTag := ["http"]
  protocol := []
  network := []
  port := [443]
  portRange := []
  domain := []
  domainSuffix := []
  queryType := none
  ipCidr := []
  reverse := some fun _ => some "example.com"
  geoip := []

def reverseRequest : Request :=
  ⟨.ip (.v4 ⟨198, 18, 0, 1⟩ 443), "http", some .tcp, none, none⟩

theorem matches_conjunction_reverse :
    (reverseRule.matchesRequest reverseRequest).2 = some (.domain "example.com" 443) ∧
      (reverseRule.matchesRequest reverseRequest).1 = true ∧
        reverseRule.Holds InSuffix reverseRequest := by
  have resolved := (matches_conjunction reverseRule reverseRequest).2.2
    (.domain "example.com" 443) rfl
  exact ⟨rfl, resolved, ((matches_conjunction reverseRule reverseRequest).2.1 resolved).1⟩

def emptySuffixRule : Rule :=
  { reverseRule with inboundsTag := [], port := [], domainSuffix := [""], reverse := none }

def rootedRequest : Request := ⟨.domain "example." 443, "http", some .tcp, none, none⟩

/-- `example.` ends in a dot and the empty suffix. -/
theorem emptySuffix_not_conjunction : ¬∀ (rule : Rule) (request : Request),
    ((rule.matchesRequest request).1 = true ↔
      rule.Holds EqualOrBelow request ∧ rule.HoldsGeoip request) := by
  intro all
  have below : EqualOrBelow "example." "" := .inr ⟨asBytes "example", by decide⟩
  have holds : emptySuffixRule.Holds EqualOrBelow rootedRequest :=
    { inbounds := fun some_list => absurd rfl some_list
      protocol := fun some_list => absurd rfl some_list
      network := fun some_list => absurd rfl some_list
      port := fun some_list => absurd some_list (by decide)
      domain := fun _ => ⟨"example.", 443, rfl, .inr ⟨"", List.mem_singleton_self "", below⟩⟩
      queryType := by rintro _ ⟨⟩
      ipCidr := fun some_list => absurd rfl some_list
      reverse := by rintro _ ⟨⟩ }
  have matched := (all emptySuffixRule rootedRequest).mpr
    ⟨holds, fun some_list => absurd rfl some_list⟩
  revert matched
  decide

end Rule

end QuicProxy
