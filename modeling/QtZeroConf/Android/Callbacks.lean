import QtZeroConf.Android.Instance

open reactive

namespace qtzeroconf.android.callbacks

/-- The address of a `QZeroConfPrivate`. -/
abbrev Address := UInt64

/-- A `QZeroConfPrivate` that was created, with the Java manager that it created
    for itself. -/
structure Created where
  address : Address
  alive : Bool

/-- The manager has the address as its id, as a Java `long`. -/
def Created.id (created : Created) : Int64 := created.address.toInt64

/-- The instances of a process, by the number of their creation, and the list
    of those that callbacks may reach. -/
structure Process where
  s_instances : List Address := []
  instances : List Created := []

/-- An invocation that is queued for the instance at an address. -/
inductive Output where
  | invokeMethod (receiver : Option Nat) (invocation : Invocation)

/-- Constructors, destructors, and native calls of the manager that was created
    with an instance. -/
inductive Event where
  | create (address : Address)
  | destroy (number : Nat)
  | callback (manager : Nat) (call : NativeCall)

/-- The instance that lives at an address. -/
def Process.instanceAt (s : Process) (address : Address) : Option Nat :=
  s.instances.findIdx? fun created => created.alive && created.address = address

/-- `QZeroConfPrivate::QZeroConfPrivate`, at an address that is not in use. -/
def create (address : Address) : Action Process Output := fun s =>
  if (s.instanceAt address).isSome then (s, [])
  else
    ({ s_instances := s.s_instances ++ [address]
       instances := s.instances ++ [{ address, alive := true }] }, [])

/-- `QZeroConfPrivate::~QZeroConfPrivate`, which leaves the manager alone. -/
def destroy (number : Nat) : Action Process Output := fun s =>
  match s.instances[number]? with
  | none => (s, [])
  | some created =>
    if created.alive then
      ({ s_instances := s.s_instances.filter (· ≠ created.address)
         instances := s.instances.set number { created with alive := false } }, [])
    else (s, [])

/-- What the five native methods do: the id is a pointer, which is looked up in
    the list of living instances before the invocation is queued for it. -/
def invokeQueued (id : Int64) (invocation : Invocation) : Action Process Output := fun s =>
  let ref : Address := id.toUInt64
  if s.s_instances.contains ref then (s, [.invokeMethod (s.instanceAt ref) invocation]) else (s, [])

section

variable (parse : QString → QHostAddress)

/-- `onServiceResolvedJNI`. -/
def onServiceResolvedJNI (id : Int64) (name type hostname address : QString) (port : Int32)
    (txtRecords : QMap QString QByteArray) : Action Process Output :=
  invokeQueued id (.onServiceResolved name type hostname (parse address) port (txtMap txtRecords))

/-- `onServiceRemovedJNI`. -/
def onServiceRemovedJNI (id : Int64) (name : QString) : Action Process Output :=
  invokeQueued id (.onServiceRemoved name)

/-- `onBrowserStateChangedJNI`. -/
def onBrowserStateChangedJNI (id : Int64) (running error : Bool) : Action Process Output :=
  invokeQueued id (.onBrowserStateChanged running error)

/-- `onPublisherStateChangedJNI`. -/
def onPublisherStateChangedJNI (id : Int64) (running error : Bool) : Action Process Output :=
  invokeQueued id (.onPublisherStateChanged running error)

/-- `onServiceNameChangedJNI`. -/
def onServiceNameChangedJNI (id : Int64) (newName : QString) : Action Process Output :=
  invokeQueued id (.onServiceNameChanged newName)

/-- A native call. -/
def native (id : Int64) : NativeCall → Action Process Output
  | .onServiceResolvedJNI name type hostname address port txtRecords =>
    onServiceResolvedJNI parse id name type hostname address port txtRecords
  | .onServiceRemovedJNI name => onServiceRemovedJNI id name
  | .onBrowserStateChangedJNI running error => onBrowserStateChangedJNI id running error
  | .onPublisherStateChangedJNI running error => onPublisherStateChangedJNI id running error
  | .onServiceNameChangedJNI newName => onServiceNameChangedJNI id newName

/-- The process, event by event. -/
def step : Step Process Event Output
  | s, .create address => create address s
  | s, .destroy number => destroy number s
  | s, .callback manager call =>
    match s.instances[manager]? with
    | none => (s, [])
    | some created => native parse created.id call s

/-- The states that a process reaches. -/
def reached (events : List Event) : Process := after (step parse) {} events

/-- A callback reaches the instance that its manager was created for while it
    is alive, and nothing after that. -/
def ReachesOwn (s : Process) (e : Event) : Prop :=
  ∀ manager call created, e = .callback manager call → s.instances[manager]? = some created →
    (step parse s e).2 = if created.alive then [.invokeMethod (some manager) (call.invocation parse)] else []

end

/-- No living instance has the address of a destroyed one whose manager calls
    back. -/
def NotReused (s : Process) (e : Event) : Prop :=
  ∀ manager call created, e = .callback manager call → s.instances[manager]? = some created →
    created.alive = false → ∀ other ∈ s.instances, other.alive → other.address ≠ created.address

/-- The list of instances has the addresses of the living ones, which are
    different. -/
structure Sound (s : Process) : Prop where
  listed : ∀ address, address ∈ s.s_instances ↔
    ∃ created ∈ s.instances, created.alive ∧ created.address = address
  apart : ∀ (m n : Nat) i j, s.instances[m]? = some i → s.instances[n]? = some j → i.alive → j.alive →
    i.address = j.address → m = n

theorem instanceAt_eq_none_iff {s : Process} {address : Address} :
    s.instanceAt address = none ↔ ∀ created ∈ s.instances, created.alive → created.address ≠ address := by
  simp only [Process.instanceAt, List.findIdx?_eq_none_iff, Bool.and_eq_false_imp, decide_eq_false_iff_not, ne_eq]

/-- A living instance is found at its address. -/
theorem instanceAt_of_alive {s : Process} (hs : Sound s) {number : Nat} {created : Created}
    (h : s.instances[number]? = some created) (halive : created.alive) :
    s.instanceAt created.address = some number := by
  obtain ⟨hlt, hcreated⟩ := List.getElem?_eq_some_iff.mp h
  rw [Process.instanceAt, List.findIdx?_eq_some_iff_getElem]
  refine ⟨hlt, by simp [hcreated, halive], fun earlier hearlier hfound => ?_⟩
  simp only [Bool.and_eq_true, decide_eq_true_eq] at hfound
  have hsame := hs.apart earlier number _ created (List.getElem?_eq_getElem (hearlier.trans hlt)) h hfound.1 halive
    hfound.2
  omega

theorem sound_create {s : Process} (hs : Sound s) (address : Address) : Sound (create address s).1 := by
  unfold create
  split
  · exact hs
  · rename_i hfree
    have hunused := instanceAt_eq_none_iff.mp (Option.not_isSome_iff_eq_none.mp hfree)
    have hold {n : Nat} {i : Created} (hi : s.instances[n]? = some i) (halive : i.alive) :
        i.address ≠ address := hunused i (List.mem_of_getElem? hi) halive
    have hsplit {n : Nat} {i : Created}
        (hi : (s.instances ++ [{ address, alive := true }])[n]? = some i) :
        s.instances[n]? = some i ∨ (n = s.instances.length ∧ i.address = address) := by
      rw [List.getElem?_append] at hi
      split at hi
      · exact .inl hi
      · rename_i hn
        rw [List.getElem?_singleton] at hi
        split at hi
        · cases hi
          exact .inr ⟨by omega, rfl⟩
        · cases hi
    refine ⟨fun address' => ?_, fun m n i j hi hj hialive hjalive hsame => ?_⟩
    · simp only [List.mem_append, List.mem_singleton, hs.listed]
      constructor
      · rintro (⟨created, hmem, halive, rfl⟩ | rfl)
        · exact ⟨created, .inl hmem, halive, rfl⟩
        · exact ⟨_, .inr rfl, rfl, rfl⟩
      · rintro ⟨created, hmem | rfl, halive, rfl⟩
        · exact .inl ⟨created, hmem, halive, rfl⟩
        · exact .inr rfl
    · rcases hsplit hi with hi | ⟨rfl, hiaddress⟩ <;> rcases hsplit hj with hj | ⟨rfl, hjaddress⟩
      · exact hs.apart m n i j hi hj hialive hjalive hsame
      · exact absurd (hsame.trans hjaddress) (hold hi hialive)
      · exact absurd (hsame.symm.trans hiaddress) (hold hj hjalive)
      · rfl

theorem sound_destroy {s : Process} (hs : Sound s) (number : Nat) : Sound (destroy number s).1 := by
  unfold destroy
  split
  · exact hs
  · rename_i created hcreated
    split
    · rename_i halive
      have hset {n : Nat} {i : Created}
          (hi : (s.instances.set number { created with alive := false })[n]? = some i) (hialive : i.alive) :
          n ≠ number ∧ s.instances[n]? = some i := by
        rw [List.getElem?_set] at hi
        split at hi
        · split at hi
          · cases hi
            cases hialive
          · cases hi
        · rename_i hne
          exact ⟨Ne.symm hne, hi⟩
      refine ⟨fun address => ?_, fun m n i j hi hj hialive hjalive hsame => ?_⟩
      · simp only [List.mem_filter, decide_not, Bool.not_eq_true', decide_eq_false_iff_not, hs.listed]
        constructor
        · rintro ⟨⟨other, hmem, hother, rfl⟩, hne⟩
          obtain ⟨n, hn⟩ := List.getElem?_of_mem hmem
          refine ⟨other, List.mem_of_getElem? (i := n) ?_, hother, rfl⟩
          rw [List.getElem?_set_ne, hn]
          rintro rfl
          rw [hcreated] at hn
          cases hn
          exact hne rfl
        · rintro ⟨other, hmem, hother, rfl⟩
          obtain ⟨n, hn⟩ := List.getElem?_of_mem hmem
          obtain ⟨hne, hold⟩ := hset hn hother
          refine ⟨⟨other, List.mem_of_getElem? hold, hother, rfl⟩, fun hsame => hne ?_⟩
          exact hs.apart n number other created hold hcreated hother halive hsame
      · exact hs.apart m n i j (hset hi hialive).2 (hset hj hjalive).2 hialive hjalive hsame
    · exact hs

/-- The pointer that a manager has as its id is that of its instance. -/
theorem toUInt64_id (created : Created) : created.id.toUInt64 = created.address := by
  simp [Created.id]

section

variable {parse : QString → QHostAddress}

theorem native_eq (id : Int64) (call : NativeCall) :
    native parse id call = invokeQueued id (call.invocation parse) := by
  cases call <;> rfl

/-- A callback, with the lookup of its id spelled out. -/
theorem step_callback {s : Process} {manager : Nat} {created : Created}
    (h : s.instances[manager]? = some created) (call : NativeCall) :
    step parse s (.callback manager call) =
      if s.s_instances.contains created.address then
        (s, [.invokeMethod (s.instanceAt created.address) (call.invocation parse)])
      else (s, []) := by
  simp only [step, h, native_eq, invokeQueued, toUInt64_id]

theorem sound_step {s : Process} (hs : Sound s) (e : Event) : Sound (step parse s e).1 := by
  cases e with
  | create address => exact sound_create hs address
  | destroy number => exact sound_destroy hs number
  | callback manager call =>
    cases h : s.instances[manager]? with
    | none => simpa only [step, h] using hs
    | some created =>
      rw [step_callback h]
      split <;> exact hs

/-- A callback goes wrong just when its manager's instance is gone and another
    one lives in its place. -/
theorem reachesOwn_iff_notReused {s : Process} (hs : Sound s) (e : Event) :
    ReachesOwn parse s e ↔ NotReused s e := by
  constructor
  · intro h manager call created he hcreated hdead other hother halive hsame
    have hempty := h manager call created he hcreated
    have hlisted : created.address ∈ s.s_instances := (hs.listed _).mpr ⟨other, hother, halive, hsame⟩
    rw [he, step_callback hcreated, if_pos (List.contains_iff_mem.mpr hlisted), hdead] at hempty
    cases hempty
  · intro h manager call created he hcreated
    rw [he, step_callback hcreated]
    by_cases halive : created.alive
    · have hlisted : created.address ∈ s.s_instances :=
        (hs.listed _).mpr ⟨created, List.mem_of_getElem? hcreated, halive, rfl⟩
      rw [if_pos (List.contains_iff_mem.mpr hlisted), if_pos halive, instanceAt_of_alive hs hcreated halive]
    · have hunlisted : created.address ∉ s.s_instances := by
        rw [hs.listed]
        rintro ⟨other, hother, hotheralive, hsame⟩
        exact h manager call created he hcreated (Bool.eq_false_iff.mpr halive) other hother hotheralive hsame
      rw [if_neg (mt List.contains_iff_mem.mp hunlisted), if_neg halive]

theorem sound_empty : Sound {} := by
  constructor
  · intro address
    simp
  · intro m n i j hi
    simp at hi

variable (parse)

/-- In a run, callbacks reach their own instance and nothing else just when
    none of them comes after the address of its own instance was used again. -/
theorem reachesOwn_iff (events : List Event) :
    Along (step parse) (ReachesOwn parse) {} events ↔ Along (step parse) NotReused {} events :=
  along_congr (I := Sound) (fun _ e hs _ => sound_step hs e) (fun _ e hs => reachesOwn_iff_notReused hs e)
    sound_empty events

end

/-- The address of a destroyed instance is used again: what its manager calls
    goes to the later instance. -/
theorem late_callback_reaches_other :
    ¬ ∀ parse events, Along (step parse) (ReachesOwn parse) {} events := by
  intro h
  have hall := h (fun _ => .ipv4 0) [.create 4096, .destroy 0, .create 4096, .callback 0 (.onServiceRemovedJNI [])]
  have hlast := (along_iff_split.mp hall) [.create 4096, .destroy 0, .create 4096]
    (.callback 0 (.onServiceRemovedJNI [])) [] rfl
  have hoob := hlast 0 (.onServiceRemovedJNI []) { address := 4096, alive := false } rfl rfl
  cases hoob

end qtzeroconf.android.callbacks
