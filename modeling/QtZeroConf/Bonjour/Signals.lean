import QtZeroConf.Bonjour.Listing

open reactive reactive.Action mirror

namespace qtzeroconf.bonjour

open QZeroConfPrivate

/-- What an instance has signalled in a run: the signals add up to the list;
    each update or removal carries the very object that is listed; and the
    signals for one key come as the life of an entry does. -/
structure SignalsMirror (events : List Event) : Prop where
  folded : replay empty (notices (trace step {} events)) = tableView (reached events).services
  coherent : Coherent Eq empty (notices (trace step {} events))
  alternating : ∀ k, Alternating false ((notices (trace step {} events)).filter fun notice => notice.key = k)

/-- An address lists its service on the interface that the service was found on,
    and where something is listed under the key of the reply already, it is the
    service of the reply that is listed under its own key. -/
def AddressListsOwn (s : QZeroConfPrivate) (e : Event) : Prop :=
  ∀ zcs interfaceIndex, addressed s e = some (zcs, interfaceIndex) →
    if addressKey s zcs interfaceIndex ∈ s.services then s.services[key (s.objects zcs)]? = some zcs
    else interfaceIndex = (s.objects zcs).m_interfaceIndex

/-- Every entry is under the key of its service. -/
def Filed (s : QZeroConfPrivate) : Prop := ∀ (k : QString) id, s.services[k]? = some id → key (s.objects id) = k

/-- What lists nothing is signalled as it happens. -/
theorem mirrors_listStep {s s' : QZeroConfPrivate} {ns : List (Notice QString ServiceId)} (hs : Filed s)
    (h : ListStep s s' ns) : Mirrors Eq (tableView s.services) ns (tableView s'.services) := by
  cases h with
  | unchanged hservices =>
    rw [hservices]
    exact mirrors_nil
  | removed hlisted hservices =>
    rw [hservices, tableView_erase, hs _ _ hlisted]
    exact mirrors_single hlisted
  | cleared hservices =>
    have hremoved : (s.services.toList.map fun entry => Notice.removed (key (s.objects entry.2)) entry.2) =
        s.services.toList.map fun entry => .removed entry.1 entry.2 := by
      refine List.map_congr_left fun entry hentry => ?_
      rw [hs entry.1 entry.2 (Std.ExtTreeMap.mem_toList_iff_getElem?_eq_some.mp hentry)]
    rw [hservices, hremoved, tableView_empty]
    exact mirrors_clear s.services

/-- An address is signalled as what it does to the list exactly when it lists
    its own service. -/
theorem mirrors_listService_iff (zcs : ServiceId) (k : QString) (s : QZeroConfPrivate) :
    Mirrors Eq (tableView s.services) (notices (listService zcs k s).2)
        (tableView (listService zcs k s).1.services) ↔
      if k ∈ s.services then s.services[key (s.objects zcs)]? = some zcs else key (s.objects zcs) = k := by
  unfold listService
  by_cases hk : k ∈ s.services
  · have hcontains : s.services.contains k := Std.ExtTreeMap.mem_iff_contains.mp hk
    rw [if_pos hcontains, if_pos hk]
    constructor
    · rintro ⟨⟨⟨old, hold, rfl⟩, -⟩, -⟩
      exact hold
    · intro hlisted
      refine ⟨⟨⟨zcs, hlisted, rfl⟩, trivial⟩, ?_⟩
      exact Function.update_eq_self_iff.mpr hlisted.symm
  · have hcontains : ¬ s.services.contains k := fun h => hk (Std.ExtTreeMap.mem_iff_contains.mpr h)
    have habsent : s.services[k]? = none := Std.ExtTreeMap.getElem?_eq_none hk
    rw [if_neg hcontains, if_neg hk]
    simp only [tableView_insert]
    constructor
    · rintro ⟨-, hreplayed⟩
      by_contra hne
      have hentry := congrFun hreplayed k
      rw [Function.update_self] at hentry
      simp only [notices, List.filterMap_cons, Output.notice?, Signal.notice?, shared, List.filterMap_nil,
        replay_cons, replay_nil, Notice.apply, Function.update_of_ne (Ne.symm hne), tableView, habsent] at hentry
      cases hentry
    · rintro rfl
      exact mirrors_single (n := .added (key (s.objects zcs)) zcs) habsent

theorem key_eq_addressKey_iff {s : QZeroConfPrivate} {zcs : ServiceId} {interfaceIndex : UInt32} :
    key (s.objects zcs) = addressKey s zcs interfaceIndex ↔ interfaceIndex = (s.objects zcs).m_interfaceIndex := by
  constructor
  · intro h
    exact (UInt32.toNat_inj.mp (Int.ofNat.inj (serviceKey_inj_interface h))).symm
  · rintro rfl
    rfl

/-- A step signals what it does to the list exactly when an address that it
    delivers lists its own service. -/
theorem mirrors_step_iff {s : QZeroConfPrivate} (hs : Sound s) (hfiled : Filed s) (e : Event) :
    Mirrors Eq (tableView s.services) (notices (step s e).2) (tableView (step s e).1.services) ↔
      AddressListsOwn s e := by
  cases haddressed : addressed s e with
  | none =>
    refine iff_of_true (mirrors_listStep hfiled (listStep_step hs haddressed)) fun zcs interfaceIndex h => ?_
    rw [haddressed] at h
    cases h
  | some entry =>
    obtain ⟨zcs, interfaceIndex⟩ := entry
    obtain ⟨hAddress, hstep⟩ := addressed_step haddressed
    have hkey : key ((s.setServiceIp zcs hAddress).objects zcs) = key (s.objects zcs) :=
      key_eq_of_pairOf (pairOf_setServiceIp zcs hAddress s zcs)
    have hmirrors := mirrors_listService_iff zcs (addressKey s zcs interfaceIndex) (s.setServiceIp zcs hAddress)
    rw [hkey, key_eq_addressKey_iff] at hmirrors
    rw [hstep]
    refine hmirrors.trans ?_
    simp only [AddressListsOwn, haddressed, Option.some.injEq, Prod.mk.injEq, and_imp]
    exact ⟨fun h _ _ hzcs hinterface => hzcs ▸ hinterface ▸ h, fun h => h zcs interfaceIndex rfl rfl⟩

/-- The entries stay under the keys of their services while addresses list their
    own. -/
theorem filed_step {s : QZeroConfPrivate} (hs : Sound s) (hfiled : Filed s) {e : Event}
    (hown : AddressListsOwn s e) : Filed (step s e).1 := by
  have hkept (k : QString) (id : ServiceId) (hid : s.services[k]? = some id) :
      key ((step s e).1.objects id) = k :=
    (key_eq_of_pairOf (pairOf_step s e (hs.services k id hid))).trans (hfiled k id hid)
  intro k id hid
  cases haddressed : addressed s e with
  | none => exact hkept k id ((listStep_step hs haddressed).listed hid)
  | some entry =>
    obtain ⟨zcs, interfaceIndex⟩ := entry
    obtain ⟨hAddress, hstep⟩ := addressed_step haddressed
    have hlists := hown zcs interfaceIndex haddressed
    by_cases hlisted : addressKey s zcs interfaceIndex ∈ s.services
    · refine hkept k id ?_
      have hcontains : (s.setServiceIp zcs hAddress).services.contains (addressKey s zcs interfaceIndex) :=
        Std.ExtTreeMap.mem_iff_contains.mp hlisted
      rwa [hstep, listService, if_pos hcontains] at hid
    · rw [if_neg hlisted] at hlists
      have hzcs : key ((step s e).1.objects zcs) = addressKey s zcs interfaceIndex := by
        rw [hstep, (listService_spec _ _ _).2]
        have hpair := pairOf_setServiceIp zcs hAddress s zcs
        exact (key_eq_of_pairOf hpair).trans (key_eq_addressKey_iff.mpr hlists)
      rw [hstep] at hid
      rcases (listService_spec _ _ _).1 k id hid with hold | ⟨rfl, rfl⟩
      · exact hkept k id hold
      · exact hzcs

/-- In every run the signals mirror the list, in every state that the run
    visits, exactly when every address lists its own service. -/
theorem signalsMirror_iff (events : List Event) :
    (∀ pre, pre <+: events → SignalsMirror pre) ↔ Along step AddressListsOwn {} events := by
  have hsteps : Along step (fun s e => Mirrors Eq (tableView s.services) (notices (step s e).2)
      (tableView (step s e).1.services)) {} events ↔ Along step AddressListsOwn {} events := by
    refine along_congr (I := fun s => Sound s ∧ Filed s) ?_ (fun s e hs => mirrors_step_iff hs.1 hs.2 e)
      ⟨sound_initial, fun k id h => by simp at h⟩ events
    rintro s e ⟨hs, hfiled⟩ hmirrors
    exact ⟨sound_step s e hs, filed_step hs hfiled ((mirrors_step_iff hs hfiled e).mp hmirrors)⟩
  have hinitial : tableView ({} : QZeroConfPrivate).services = empty := tableView_empty
  refine Iff.trans (forall₂_congr fun pre _ => ?_)
    ((mirrors_iff_along (fun s : QZeroConfPrivate => tableView s.services) Output.notice?).trans hsteps)
  rw [hinitial]
  constructor
  · rintro ⟨hfolded, hcoherent, -⟩
    exact ⟨hcoherent, hfolded⟩
  · rintro ⟨hcoherent, hfolded⟩
    exact ⟨hfolded, hcoherent, hcoherent.alternating⟩

/-- A service that is announced twice before it is resolved; both of its
    resolvers get an address. -/
def announcedTwice : List Event :=
  let found : Event :=
    .browseReply .watched [] kDNSServiceFlagsAdd 2 kDNSServiceErr_NoError [0x61] reportedType reportedDomain
  let resolved (r : ResolverId) : Event := .resolveReply .watched r 2 kDNSServiceErr_NoError [0x68] 0 0 []
  let address (r : ResolverId) : Event :=
    .addressReply r kDNSServiceFlagsAdd 2 kDNSServiceErr_NoError (.ipv4 0x0A000001)
  [.startBrowser .watched [] (tcpType 0x61) .IPv4Protocol, found, found, resolved 2, resolved 5, address 2, address 5]

/-- The update carries the object of the second Add, while that of the first is
    listed. -/
theorem announced_twice_breaks_mirror : ¬ ∀ pre, pre <+: announcedTwice → SignalsMirror pre := by
  intro h
  obtain ⟨-, hcoherent, -⟩ := h announcedTwice List.prefix_rfl
  have hnotices : notices (trace step {} announcedTwice) =
      [.added (serviceKey [0x61] 2) 1, .updated (serviceKey [0x61] 2) 4] := by rfl
  rw [hnotices] at hcoherent
  obtain ⟨-, ⟨listed, hlisted, rfl⟩, -⟩ := hcoherent
  exact absurd hlisted (by decide)

end qtzeroconf.bonjour
