import QtZeroConf.Bonjour.Removal

open reactive reactive.Action

namespace qtzeroconf.bonjour

open QZeroConfPrivate

/-- The record that a signal carries. -/
def Output.record? : Output → Option QZeroConfServiceData
  | .signal sent => sent.service?.map fun zcs => zcs.data
  | _ => none

/-- The service that an event is about: the one that a browse reply names, or
    the one that a resolver stands for. -/
def serviceOf (s : QZeroConfPrivate) : Event → Option (QString × UInt32)
  | .resolveReply _ r _ _ _ _ _ _ | .resolverReadyFailure r | .addressReply r _ _ _ _ |
    .addressReadyFailure r => (s.live r).map fun x => pairOf (s.objects x.zcs)
  | e => (browsed s e).map fun reply => reply.2

/-- A step that leaves a service alone: the entry under its key and the record
    there, its resolvers and their records stay as they are, and no signal is
    emitted for it. -/
structure Undisturbed (p : QString × UInt32) (s : QZeroConfPrivate) (e : Event) : Prop where
  entry : (step s e).1.services[pairKey p]? = s.services[pairKey p]?
  record : ∀ id, s.services[pairKey p]? = some id → (step s e).1.objects id = s.objects id
  stored : (step s e).1.resolvers[pairKey p]? = s.resolvers[pairKey p]?
  resolvers : ∀ r x, s.live r = some x → pairOf (s.objects x.zcs) = p →
    (step s e).1.live r = some x ∧ (step s e).1.objects x.zcs = s.objects x.zcs
  silent : ∀ o ∈ (step s e).2, ∀ zcs, o.record? = some zcs → pairOf zcs ≠ p

/-- The resolver `r`, if it is not deleted, resolves the object `zcs`, whose key
    is `k`. -/
structure ResolvesAt (r : ResolverId) (zcs : ServiceId) (k : QString) (s : QZeroConfPrivate) : Prop where
  object : ∀ x, s.live r = some x → x.zcs = zcs
  key : key (s.objects zcs) = k

/-- What the replies for a resolver are limited to: the list, the other
    resolvers, the other records and the other keys stay as they are. -/
structure Confined (r : ResolverId) (zcs : ServiceId) (k : QString) (s s' : QZeroConfPrivate) : Prop where
  resolvesAt : ResolvesAt r zcs k s'
  services : s'.services = s.services
  resolvers : ∀ k' : QString, k ≠ k' → s'.resolvers[k']? = s.resolvers[k']?
  objects : ∀ id, id ≠ zcs → s'.objects id = s.objects id
  live : ∀ r', r' ≠ r → s'.live r' = s.live r'

/-- An action that does so, and signals nothing, from every state in which the
    resolver stands for its service. -/
abbrev ConfinedTo (r : ResolverId) (zcs : ServiceId) (k : QString)
    (a : Action QZeroConfPrivate Output) : Prop :=
  Within (fun s s' => ResolvesAt r zcs k s → Confined r zcs k s s') (fun o => o.record? = none) a

section

variable {r : ResolverId} {zcs : ServiceId} {k : QString}

/-- Confined actions, one after the other. -/
theorem ConfinedTo.andThen {a b : Action QZeroConfPrivate Output} (ha : ConfinedTo r zcs k a)
    (hb : ConfinedTo r zcs k b) : ConfinedTo r zcs k (a.andThen b) := by
  refine within_andThen (fun s t u hst htu hs => ?_) ha hb
  obtain ⟨hat, hservices, hresolvers, hobjects, hlive⟩ := hst hs
  obtain ⟨hat', hservices', hresolvers', hobjects', hlive'⟩ := htu hat
  exact ⟨hat', hservices'.trans hservices, fun k' hk => (hresolvers' k' hk).trans (hresolvers k' hk),
    fun id hid => (hobjects' id hid).trans (hobjects id hid), fun r' hr => (hlive' r' hr).trans (hlive r' hr)⟩

theorem Confined.refl {s : QZeroConfPrivate} (hs : ResolvesAt r zcs k s) : Confined r zcs k s s :=
  ⟨hs, rfl, fun _ _ => rfl, fun _ _ => rfl, fun _ _ => rfl⟩

theorem confinedTo_skip : ConfinedTo r zcs k skip := within_skip fun _ => Confined.refl

theorem confinedTo_emit {o : Output} (ho : o.record? = none) : ConfinedTo r zcs k (emit o) :=
  within_emit (fun _ => Confined.refl) ho

/-- A write to the service of the resolver itself. -/
theorem confined_modifyService {f : QZeroConfServiceData → QZeroConfServiceData}
    (hf : ∀ z, pairOf (f z) = pairOf z) {s : QZeroConfPrivate} (hs : ResolvesAt r zcs k s) :
    Confined r zcs k s (s.modifyService zcs f) where
  resolvesAt := ⟨hs.object, (key_eq_of_pairOf (pairOf_modifyService zcs hf s zcs)).trans hs.key⟩
  services := rfl
  resolvers _ _ := rfl
  objects _ hid := Function.update_of_ne hid _ _
  live _ _ := rfl

/-- A write to the resolver itself. -/
theorem confined_modifyResolver {f : Resolver → Resolver} (hf : ∀ x, (f x).zcs = x.zcs)
    {s : QZeroConfPrivate} (hs : ResolvesAt r zcs k s) : Confined r zcs k s (s.modifyResolver r f) where
  resolvesAt := by
    refine ⟨fun x hx => ?_, hs.key⟩
    simp only [modifyResolver, Function.update_self, Option.map_eq_some_iff] at hx
    obtain ⟨y, hy, rfl⟩ := hx
    exact (hf y).trans (hs.object y hy)
  services := rfl
  resolvers _ _ := rfl
  objects _ _ := rfl
  live _ hr := Function.update_of_ne hr _ _

/-- A resolver that ends takes itself away only. -/
theorem confinedTo_cleanUpResolver : ConfinedTo r zcs k (Resolver.cleanUp r) := by
  intro s
  unfold Resolver.cleanUp
  split
  · exact confinedTo_skip s
  · rename_i x hx
    refine ⟨fun hs => ⟨⟨by simp, hs.key⟩, rfl, fun k' hk => ?_, fun _ _ => rfl, fun r' hr => ?_⟩,
      by simp [Output.record?]⟩
    · simp [hs.object x hx, hs.key, Std.ExtTreeMap.getElem?_erase, hk]
    · exact Function.update_of_ne hr _ _

theorem confinedTo_cleanUpUnless (start : Start) : ConfinedTo r zcs k (cleanUpUnless start r) := by
  unfold cleanUpUnless
  split
  · exact confinedTo_skip
  · exact confinedTo_cleanUpResolver

theorem confinedTo_closeAddress : ConfinedTo r zcs k (closeAddress r) := by
  intro s
  unfold closeAddress
  split
  · exact confinedTo_skip s
  · refine ⟨confined_modifyResolver ?_, by simp [Output.record?]⟩
    exact fun _ => rfl

theorem confined_setAddressRef (start : Start) {s : QZeroConfPrivate} (hs : ResolvesAt r zcs k s) :
    Confined r zcs k s (s.setAddressRef start r) := by
  obtain ⟨hat, hservices, hresolvers, hobjects, hlive⟩ := confined_modifyResolver
    (f := fun resolver => { resolver with DNSaddressRef := s.newRef start }) (fun _ => rfl) hs
  exact ⟨⟨hat.object, hat.key⟩, hservices, hresolvers, hobjects, hlive⟩

/-- A request for an address is made by the resolver alone. -/
theorem confinedTo_openAddress (start : Start) (interfaceIndex : UInt32) (hostName : CString) :
    ConfinedTo r zcs k (openAddress start interfaceIndex hostName r) := by
  intro s
  have hset : ConfinedTo r zcs k (update (setAddressRef start r)) :=
    within_update fun _ hs => confined_setAddressRef start hs
  exact ConfinedTo.andThen (confinedTo_emit rfl) (hset.andThen (confinedTo_cleanUpUnless start)) s

/-- A resolve reply reaches its own service only. -/
theorem confinedTo_resolverCallback (start : Start) (interfaceIndex : UInt32) (err : Int32)
    (hostName : CString) (port txtLen : UInt16) (txtRecord : QByteArray) :
    ConfinedTo r zcs k (resolverCallback start r interfaceIndex err hostName port txtLen txtRecord) := by
  intro s
  unfold resolverCallback
  split
  · exact confinedTo_skip s
  · rename_i x hx
    split
    · exact confinedTo_cleanUpResolver s
    · have hwrite : ConfinedTo r x.zcs k
          (update (modifyService x.zcs (setResolved hostName port txtLen txtRecord))) :=
        within_update fun _ hs => confined_modifyService (pairOf_setResolved hostName port txtLen txtRecord) hs
      have hbody := hwrite.andThen
        (confinedTo_closeAddress.andThen (confinedTo_openAddress start interfaceIndex hostName))
      refine ⟨fun hs => ?_, (hbody s).2⟩
      have hobject := hs.object x hx
      subst hobject
      exact (hbody s).1 hs

end

/-- No entry under a key stands for the service. -/
def NotUnder (k : QString) (q : QString × UInt32) (s : QZeroConfPrivate) : Prop :=
  ∀ id, s.services[k]? = some id → pairOf (s.objects id) ≠ q

/-- Replies that are confined to a resolver for `q` leave every service with
    another key alone. -/
theorem undisturbed_of_confined {s : QZeroConfPrivate} {e : Event} {p q : QString × UInt32} {r : ResolverId}
    {x : Resolver} (hx : s.live r = some x) (hq : pairOf (s.objects x.zcs) = q)
    (hkey : pairKey q ≠ pairKey p) (hforeign : NotUnder (pairKey p) q s)
    (hconfined : Confined r x.zcs (pairKey q) s (step s e).1)
    (hsilent : ∀ o ∈ (step s e).2, o.record? = none) : Undisturbed p s e := by
  have hne : q ≠ p := fun h => hkey (congrArg pairKey h)
  refine ⟨by rw [hconfined.services], fun id hid => hconfined.objects id ?_,
    hconfined.resolvers _ hkey, fun r' x' hx' hp => ⟨?_, hconfined.objects _ ?_⟩, fun o ho zcs hrecord => ?_⟩
  · rintro rfl
    exact hforeign _ hid hq
  · rw [hconfined.live r', hx']
    rintro rfl
    rw [hx] at hx'
    cases hx'
    exact hne (hq.symm.trans hp)
  · intro hzcs
    exact hne (hq.symm.trans (hzcs ▸ hp))
  · rw [hsilent o ho] at hrecord
    cases hrecord

/-- Every living resolver resolves one service. -/
theorem resolvesAt_of_live {s : QZeroConfPrivate} {r : ResolverId} {x : Resolver} (hx : s.live r = some x) :
    ResolvesAt r x.zcs (key (s.objects x.zcs)) s := by
  refine ⟨fun y hy => ?_, rfl⟩
  rw [hx] at hy
  cases hy
  rfl

/-- What `resolve` touches: its own resolver and the key of its service. -/
theorem resolve_frame (start : Start) (zcs : ServiceId) (s : QZeroConfPrivate) :
    (∀ r, r ≠ s.next → (resolve start zcs s).1.live r = s.live r) ∧
      (∀ k : QString, key (s.objects zcs) ≠ k → (resolve start zcs s).1.resolvers[k]? = s.resolvers[k]?) ∧
      ∀ o ∈ (resolve start zcs s).2, o.record? = none := by
  refine ⟨fun r hr => ?_, fun k hk => ?_, ?_⟩
  · cases start <;>
      simp [resolve, cleanUpUnless, Resolver.cleanUp, setResolverRef, modifyResolver, newResolver, newRef, hr]
  · cases start <;>
      simp [resolve, cleanUpUnless, Resolver.cleanUp, setResolverRef, modifyResolver, newResolver, newRef, hk,
        Std.ExtTreeMap.getElem?_insert, Std.ExtTreeMap.getElem?_erase]
  · cases start <;>
      simp [resolve, cleanUpUnless, Resolver.cleanUp, setResolverRef, modifyResolver, newResolver, newRef,
        Output.record?]

/-- An Add is skipped under a key that is listed, and resolved otherwise. -/
theorem step_add {s : QZeroConfPrivate} {e : Event} {q : QString × UInt32}
    (h : browsed s e = some (true, q)) :
    ∃ start z, pairOf z = q ∧
      step s e =
        if s.services.contains (pairKey q) then (s, []) else resolve start s.next (s.newService z) := by
  cases e with
  | browseReply start visit flags interfaceIndex err name type domain =>
    obtain ⟨⟨hopen, herr⟩, hpair⟩ := Option.ite_none_right_eq_some.mp h
    obtain ⟨hflags, rfl⟩ := Prod.mk.inj (Option.some.inj hpair)
    have hadd : flags &&& kDNSServiceFlagsAdd ≠ 0 := of_decide_eq_true hflags
    refine ⟨start, foundService interfaceIndex name type domain, rfl, ?_⟩
    simp only [step, whileOpen, if_pos hopen, browseCallback, if_pos herr, if_pos hadd]
    rfl
  | _ => cases h

/-- A step that changes nothing and signals nothing. -/
theorem undisturbed_of_idle {p : QString × UInt32} {s : QZeroConfPrivate} {e : Event}
    (h : step s e = (s, [])) : Undisturbed p s e := by
  constructor <;> simp +contextual [h]

/-- An Add under another key. -/
theorem undisturbed_add {s : QZeroConfPrivate} (hs : Sound s) {e : Event} {p q : QString × UInt32}
    (hkey : pairKey q ≠ pairKey p) (h : browsed s e = some (true, q)) : Undisturbed p s e := by
  obtain ⟨start, z, rfl, hstep⟩ := step_add h
  split at hstep
  · exact undisturbed_of_idle hstep
  · obtain ⟨-, hobjects, hservices, -, -, -⟩ := resolve_spec start s.next (s.newService z)
    obtain ⟨hlive, hresolvers, hsilent⟩ := resolve_frame start s.next (s.newService z)
    have hkey' : key ((s.newService z).objects s.next) ≠ pairKey p := by
      rw [objects_newService_self]
      exact hkey
    constructor <;> rw [hstep]
    · rw [hservices]
      rfl
    · intro id hid
      rw [hobjects, objects_newService_of_lt (hs.services _ id hid)]
    · rw [hresolvers _ hkey']
      rfl
    · intro r x hx hp
      obtain ⟨hr, hzcs, -⟩ := hs.live r x hx
      rw [hobjects, objects_newService_of_lt hzcs, hlive r (Nat.ne_of_lt (hr.trans (Nat.lt_succ_self _)))]
      exact ⟨hx, rfl⟩
    · intro o ho zcs hrecord
      rw [hsilent o ho] at hrecord
      cases hrecord

theorem record?_cleanUpAt (k : QString) (s : QZeroConfPrivate) :
    ∀ o ∈ (cleanUpAt k s).2, o.record? = none := by
  unfold cleanUpAt Resolver.cleanUp
  (repeat' split) <;> simp [Output.record?]

/-- A Remove under another key. -/
theorem undisturbed_remove {s : QZeroConfPrivate} (hs : SoundRegistry s) {e : Event} {p q : QString × UInt32}
    (hkey : pairKey q ≠ pairKey p) (hforeign : NotUnder (pairKey q) p s)
    (h : browsed s e = some (false, q)) : Undisturbed p s e := by
  have hstep := step_remove h
  cases hentry : s.services[pairKey q]? with
  | none =>
    rw [hentry] at hstep
    exact undisturbed_of_idle hstep
  | some zcs =>
    simp only [hentry] at hstep
    have hregistry := registry_cleanUpAt (pairKey q) { s with services := s.services.erase (pairKey q) }
    obtain ⟨hservices, hobjects⟩ :=
      cleanUpAt_tables (pairKey q) { s with services := s.services.erase (pairKey q) }
    have hlive (r : ResolverId) := live_cleanUpAt (s := { s with services := s.services.erase (pairKey q) })
      (pairKey q) r
    constructor <;> rw [hstep] <;> simp only [removeService, andThen_fst, andThen_snd, update_apply]
    · simp [hservices, Std.ExtTreeMap.getElem?_erase, hkey]
    · exact fun id _ => by rw [hobjects]
    · have htable := registry.Registry.table_releaseAt hs.stored (pairKey q) (pairKey p)
      rw [if_neg hkey] at htable
      exact (congrArg (fun g => g.table[pairKey p]?) hregistry).trans htable
    · intro r x hx hp
      refine ⟨?_, by rw [hobjects]⟩
      rw [hlive r, if_neg, hx]
      intro hstored
      have halive := hs.stored _ r hstored
      simp only [QZeroConfPrivate.registry, hx, Option.map_some, Option.some.injEq] at halive
      exact hkey (halive.symm.trans (congrArg pairKey hp))
    · intro o ho zcs' hrecord
      have hsignal : o.record? = some (s.objects zcs) := by
        simp only [List.nil_append, List.mem_append, List.mem_singleton] at ho
        rcases ho with ho | rfl
        · rw [record?_cleanUpAt _ _ o ho] at hrecord
          cases hrecord
        · simp [Output.record?, Signal.service?, shared, hobjects]
      rw [hsignal, Option.some.injEq] at hrecord
      exact hrecord ▸ hforeign zcs hentry

/-- No address of a resolver for `q` arrives on an interface whose key, under the
    name of `q`, is `k`. -/
def LandsElsewhere (k : QString) (q : QString × UInt32) (s : QZeroConfPrivate) : Event → Prop
  | .addressReply r _ interfaceIndex _ _ =>
    ∀ x, s.live r = some x → pairOf (s.objects x.zcs) = q → serviceKey q.1 interfaceIndex.toNat ≠ k
  | _ => True

/-- What lands elsewhere does not come under the key. -/
theorem notUnder_step {s : QZeroConfPrivate} (hs : Sound s) {e : Event} {k : QString} {q : QString × UInt32}
    (hunder : NotUnder k q s) (hlands : LandsElsewhere k q s e) : NotUnder k q (step s e).1 := by
  intro id hid
  rcases step_cases s e with ⟨hevolves, -⟩ | ⟨start, z, -, -, hstep⟩ |
    ⟨r, x, flags, interfaceIndex, err, hAddress, rfl, hx, hstep⟩
  · have hold := hevolves.services k id hid
    rw [hevolves.pairs id (hs.services k id hold)]
    exact hunder id hold
  · obtain ⟨-, hobjects, hservices, -, -, -⟩ := resolve_spec start s.next (s.newService z)
    rw [hstep, hservices] at hid
    have hold : s.services[k]? = some id := hid
    rw [hstep, hobjects, objects_newService_of_lt (hs.services k id hold)]
    exact hunder id hold
  · obtain ⟨hlisted, hrest⟩ :=
      listService_spec x.zcs (serviceKey (s.objects x.zcs).m_name interfaceIndex.toNat)
      (s.setServiceIp x.zcs hAddress)
    have hpair := pairOf_setServiceIp x.zcs hAddress s id
    rw [hstep] at hid ⊢
    rw [hrest, hpair]
    rcases hlisted k id hid with hold | ⟨rfl, rfl⟩
    · exact hunder id hold
    · intro hq
      refine hlands x hx hq ?_
      rw [← hq]
      rfl

/-- An address of a resolver for `q` that lands elsewhere leaves `p` alone. -/
theorem undisturbed_listService {s : QZeroConfPrivate} {e : Event} {p q : QString × UInt32}
    {x : Resolver} (hq : pairOf (s.objects x.zcs) = q) (hne : q ≠ p)
    (hforeign : NotUnder (pairKey p) q s) {k : QString} (hk : k ≠ pairKey p) {hAddress : QHostAddress}
    (hstep : step s e = listService x.zcs k (s.setServiceIp x.zcs hAddress)) :
    Undisturbed p s e := by
  have hother {id : ServiceId} (hid : id ≠ x.zcs) :
      (s.setServiceIp x.zcs hAddress).objects id = s.objects id :=
    Function.update_of_ne hid ..
  have hpair := pairOf_setServiceIp x.zcs hAddress s x.zcs
  have hrest := (listService_spec x.zcs k (s.setServiceIp x.zcs hAddress)).2
  constructor <;> rw [hstep]
  · unfold listService
    split
    · rfl
    · simp [Std.ExtTreeMap.getElem?_insert, hk, setServiceIp, modifyService]
  · intro id hid
    rw [hrest]
    refine hother ?_
    rintro rfl
    exact hforeign _ hid hq
  · rw [hrest]
    rfl
  · intro r' x' hx' hp
    rw [hrest]
    refine ⟨hx', hother ?_⟩
    rintro hzcs
    exact hne (hq.symm.trans (hzcs ▸ hp))
  · intro o ho zcs hrecord
    unfold listService at ho
    split at ho <;>
      (rw [List.mem_singleton.mp ho] at hrecord; cases hrecord;
        exact fun h => hne ((hpair.trans hq).symm.trans h))

/-- A reply for a resolver of `q`: an action that is confined to this resolver
    leaves `p` alone, and so does a reply that is not delivered. -/
theorem undisturbed_whileOpen {s : QZeroConfPrivate} {e : Event} {p q : QString × UInt32} {r : ResolverId}
    {x : Resolver} (hx : s.live r = some x) (hq : pairOf (s.objects x.zcs) = q)
    (hkey : pairKey q ≠ pairKey p) (hforeign : NotUnder (pairKey p) q s)
    {ref : QZeroConfPrivate → Option DNSServiceRef} {a : Action QZeroConfPrivate Output}
    (ha : ConfinedTo r x.zcs (pairKey q) a) (hstep : step s e = whileOpen ref a s) : Undisturbed p s e := by
  unfold whileOpen at hstep
  split at hstep
  · have hat := resolvesAt_of_live hx
    rw [show key (s.objects x.zcs) = pairKey q from congrArg pairKey hq] at hat
    exact undisturbed_of_confined hx hq hkey hforeign (hstep ▸ (ha s).1 hat) (hstep ▸ (ha s).2)
  · exact undisturbed_of_idle hstep

/-- Events about `q` leave `p` alone when their keys differ, no entry of either
    is under the key of the other one, and no address lists one there. -/
theorem undisturbed_of_service {s : QZeroConfPrivate} (hs : SoundRegistry s) {e : Event}
    {p q : QString × UInt32} (hkey : pairKey q ≠ pairKey p) (hp : NotUnder (pairKey q) p s)
    (hq : NotUnder (pairKey p) q s) (hlands : LandsElsewhere (pairKey p) q s e)
    (h : serviceOf s e = some q) : Undisturbed p s e := by
  cases e with
  | browseReply start visit flags interfaceIndex err name type domain =>
    obtain ⟨⟨add, q'⟩, hbrowsed, rfl⟩ := Option.map_eq_some_iff.mp h
    cases add with
    | true => exact undisturbed_add hs.toSound hkey hbrowsed
    | false => exact undisturbed_remove hs hkey hp hbrowsed
  | resolveReply start r interfaceIndex err hostName port txtLen txtRecord =>
    obtain ⟨x, hx, hpair⟩ := Option.map_eq_some_iff.mp h
    exact undisturbed_whileOpen hx hpair hkey hq
      (confinedTo_resolverCallback start interfaceIndex err hostName port txtLen txtRecord) rfl
  | resolverReadyFailure r =>
    obtain ⟨x, hx, hpair⟩ := Option.map_eq_some_iff.mp h
    exact undisturbed_whileOpen hx hpair hkey hq confinedTo_cleanUpResolver rfl
  | addressReadyFailure r =>
    obtain ⟨x, hx, hpair⟩ := Option.map_eq_some_iff.mp h
    exact undisturbed_whileOpen hx hpair hkey hq confinedTo_cleanUpResolver rfl
  | addressReply r flags interfaceIndex err hAddress =>
    obtain ⟨x, hx, hpair⟩ := Option.map_eq_some_iff.mp h
    by_cases herr : err = kDNSServiceErr_NoError
    · by_cases hlisted : flags &&& kDNSServiceFlagsAdd ≠ 0 ∧ (addressRef r s).isSome
      · obtain ⟨hadd, hopen⟩ := hlisted
        have hname : (s.objects x.zcs).m_name = q.1 := congrArg Prod.fst hpair
        have hstep : step s (.addressReply r flags interfaceIndex err hAddress) =
            listService x.zcs (serviceKey q.1 interfaceIndex.toNat) (s.setServiceIp x.zcs hAddress) := by
          simp [step, whileOpen, hopen, addressReply, hx, herr, hadd, setServiceIp, modifyService,
            QZeroConfServiceData.setIp, hname]
        exact undisturbed_listService hpair (fun hne => hkey (congrArg pairKey hne)) hq
          (hlands x hx hpair) hstep
      · refine undisturbed_of_idle ?_
        simp only [step, whileOpen, addressReply, hx, herr, if_true]
        split
        · rename_i hopen
          rw [if_neg fun hadd => hlisted ⟨hadd, hopen⟩]
        · rfl
    · have hstep : step s (.addressReply r flags interfaceIndex err hAddress) =
          whileOpen (addressRef r) (Resolver.cleanUp r) s := by
        simp only [step, whileOpen, addressReply, hx, if_neg herr]
      exact undisturbed_whileOpen hx hpair hkey hq confinedTo_cleanUpResolver hstep
  | _ => cases h

/-- No address lists one of two services under the key of the other. -/
def AddressesApart (p q : QString × UInt32) (s : QZeroConfPrivate) (e : Event) : Prop :=
  LandsElsewhere (pairKey p) q s e ∧ LandsElsewhere (pairKey q) p s e

/-- In every run whose addresses keep the two services apart, no event about `q`
    disturbs `p`. -/
def Apart (p q : QString × UInt32) : Prop :=
  ∀ events, Along step (AddressesApart p q) {} events →
    Along step (fun s e => serviceOf s e = some q → Undisturbed p s e) {} events

theorem apart_of_key_ne {p q : QString × UInt32} (hkey : pairKey q ≠ pairKey p) : Apart p q := by
  intro events hevents
  refine along_mono (I := fun s => SoundRegistry s ∧ NotUnder (pairKey q) p s ∧ NotUnder (pairKey p) q s)
    ?_ ?_ ⟨soundRegistry_initial, ?_, ?_⟩ hevents
  · rintro s e ⟨hs, hp, hq⟩ ⟨hlands, hlands'⟩
    exact ⟨soundRegistry_step s e hs, notUnder_step hs.toSound hp hlands', notUnder_step hs.toSound hq hlands⟩
  · rintro s e ⟨hs, hp, hq⟩ ⟨hlands, -⟩ hservice
    exact undisturbed_of_service hs hkey hp hq hlands hservice
  · intro id hid
    simp at hid
  · intro id hid
    simp at hid

/-- A service as dns_sd names it. -/
abbrev Service := CString × UInt32

def Service.pair (p : Service) : QString × UInt32 := (QString.fromUtf8 p.1, p.2)

/-- A service is apart from another one exactly when their keys differ. -/
theorem apart_iff_key_ne (p q : Service) : Apart p.pair q.pair ↔ pairKey q.pair ≠ pairKey p.pair := by
  refine ⟨fun hapart hkey => ?_, apart_of_key_ne⟩
  -- the first Add for `q` takes the key of `p`
  have hrun := hapart [.startBrowser .watched [] (tcpType 0x61) .IPv4Protocol,
    .browseReply .watched [] kDNSServiceFlagsAdd q.2 kDNSServiceErr_NoError q.1 reportedType reportedDomain]
    ⟨⟨trivial, trivial⟩, ⟨trivial, trivial⟩, trivial⟩
  have hdisturbed := (hrun.2.1 rfl).stored
  have hadd : kDNSServiceFlagsAdd ≠ 0 := by decide
  have hkey' : key (foundService q.2 q.1 reportedType reportedDomain) = pairKey p.pair := hkey
  simp [step, startBrowser, setBrowser, newRef, whileOpen, browseCallback, hadd, resolve, newResolver,
    cleanUpUnless, setResolverRef, modifyResolver, hkey', newService] at hdisturbed

end qtzeroconf.bonjour
