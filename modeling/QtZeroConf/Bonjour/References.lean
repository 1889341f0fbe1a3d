import QtZeroConf.Bonjour.Lifetime
import QtZeroConf.Library.Linear

open reactive reactive.Action linear

namespace qtzeroconf.bonjour

open QZeroConfPrivate

/-- The calls of dns_sd that return a reference. -/
inductive Source where
  | DNSServiceRegister
  | DNSServiceBrowse
  | DNSServiceResolve
  | DNSServiceGetAddrInfo
  deriving DecidableEq

/-- Where an instance keeps a reference. -/
inductive Holder where
  | dnssRef
  | browser
  | resolver (r : ResolverId)
  | address (r : ResolverId)
  deriving DecidableEq

/-- The call that a reference comes from. -/
def Holder.source : Holder → Source
  | dnssRef => .DNSServiceRegister
  | browser => .DNSServiceBrowse
  | resolver _ => .DNSServiceResolve
  | address _ => .DNSServiceGetAddrInfo

/-- The references of an instance. -/
def held (s : QZeroConfPrivate) : Holder → Option DNSServiceRef
  | .dnssRef => s.dnssRef
  | .browser => s.browser
  | .resolver r => resolverRef r s
  | .address r => addressRef r s

section Held

variable {s t : QZeroConfPrivate} {r : ResolverId} {ref : Option DNSServiceRef}

theorem held_congr (hdnssRef : t.dnssRef = s.dnssRef) (hbrowser : t.browser = s.browser)
    (hlive : t.live = s.live) : held t = held s := by
  funext i
  cases i with
  | dnssRef => exact hdnssRef
  | browser => exact hbrowser
  | resolver r => simp only [held, resolverRef, hlive]
  | address r => simp only [held, addressRef, hlive]

/-- The reference of the registration is all that changes. -/
theorem held_of_dnssRef (href : t.dnssRef = ref) (hbrowser : t.browser = s.browser) (hlive : t.live = s.live) :
    held t = Function.update (held s) .dnssRef ref := by
  rw [Function.eq_update_iff]
  refine ⟨href, fun i hi => ?_⟩
  cases i with
  | dnssRef => exact absurd rfl hi
  | browser => exact hbrowser
  | resolver r => simp only [held, resolverRef, hlive]
  | address r => simp only [held, addressRef, hlive]

/-- The reference of the browser is all that changes. -/
theorem held_of_browser (hdnssRef : t.dnssRef = s.dnssRef) (href : t.browser = ref) (hlive : t.live = s.live) :
    held t = Function.update (held s) .browser ref := by
  rw [Function.eq_update_iff]
  refine ⟨href, fun i hi => ?_⟩
  cases i with
  | dnssRef => exact hdnssRef
  | browser => exact absurd rfl hi
  | resolver r => simp only [held, resolverRef, hlive]
  | address r => simp only [held, addressRef, hlive]

/-- The resolve reference of a resolver is all that changes. -/
theorem held_of_resolver (hdnssRef : t.dnssRef = s.dnssRef) (hbrowser : t.browser = s.browser)
    (hothers : ∀ r', r' ≠ r → t.live r' = s.live r') (haddress : addressRef r t = addressRef r s)
    (href : resolverRef r t = ref) : held t = Function.update (held s) (.resolver r) ref := by
  rw [Function.eq_update_iff]
  refine ⟨href, fun i hi => ?_⟩
  cases i with
  | dnssRef => exact hdnssRef
  | browser => exact hbrowser
  | resolver r' =>
    have hr : r' ≠ r := fun hsame => hi (congrArg Holder.resolver hsame)
    simp only [held, resolverRef, hothers r' hr]
  | address r' =>
    by_cases hr : r' = r
    · subst hr
      exact haddress
    · simp only [held, addressRef, hothers r' hr]

/-- The address reference of a resolver is all that changes. -/
theorem held_of_address (hdnssRef : t.dnssRef = s.dnssRef) (hbrowser : t.browser = s.browser)
    (hothers : ∀ r', r' ≠ r → t.live r' = s.live r') (hresolver : resolverRef r t = resolverRef r s)
    (href : addressRef r t = ref) : held t = Function.update (held s) (.address r) ref := by
  rw [Function.eq_update_iff]
  refine ⟨href, fun i hi => ?_⟩
  cases i with
  | dnssRef => exact hdnssRef
  | browser => exact hbrowser
  | resolver r' =>
    by_cases hr : r' = r
    · subst hr
      exact hresolver
    · simp only [held, resolverRef, hothers r' hr]
  | address r' =>
    have hr : r' ≠ r := fun hsame => hi (congrArg Holder.address hsame)
    simp only [held, addressRef, hothers r' hr]

end Held

/-- The reference that a call returns, if it returns one. -/
def Output.obtains? : Output → Option (Source × DNSServiceRef)
  | .DNSServiceRegister ref _ _ _ _ _ _ => ref.map fun ref => (.DNSServiceRegister, ref)
  | .DNSServiceBrowse ref _ => ref.map fun ref => (.DNSServiceBrowse, ref)
  | .DNSServiceResolve ref _ _ _ _ => ref.map fun ref => (.DNSServiceResolve, ref)
  | .DNSServiceGetAddrInfo ref _ _ _ => ref.map fun ref => (.DNSServiceGetAddrInfo, ref)
  | .DNSServiceRefDeallocate _ | .signal _ => none

/-- What an output does with references. A call that returns one is followed by
    `DNSServiceRefSockFD`. -/
def Output.uses : Output → List (Use DNSServiceRef)
  | .DNSServiceRegister ref _ _ _ _ _ _ | .DNSServiceBrowse ref _ | .DNSServiceResolve ref _ _ _ _
  | .DNSServiceGetAddrInfo ref _ _ _ => obtained ref
  | .DNSServiceRefDeallocate ref => released ref
  | .signal _ => []

/-- What happens between an instance and dns_sd: what the instance puts out, and
    the references that it has processed. -/
inductive Exchange where
  | output (o : Output)
  | DNSServiceProcessResult (ref : DNSServiceRef)

def Exchange.obtains? : Exchange → Option (Source × DNSServiceRef)
  | output o => o.obtains?
  | DNSServiceProcessResult _ => none

def Exchange.uses : Exchange → List (Use DNSServiceRef)
  | output o => o.uses
  | DNSServiceProcessResult ref => [.pass (some ref)]

/-- Everything that is done with references, in order. -/
def usesOf (history : List Exchange) : List (Use DNSServiceRef) := history.flatMap Exchange.uses

/-- The references that live, and those that are gone. -/
def booksOf (history : List Exchange) : Books DNSServiceRef := applyAll unused (usesOf history)

/-- A call has returned the reference. -/
def Obtained (history : List Exchange) (source : Source) (ref : DNSServiceRef) : Prop :=
  ∃ x ∈ history, x.obtains? = some (source, ref)

/-- The references of an instance, and the one that a function at work has taken
    out of it. -/
def places (spare : Option DNSServiceRef) (s : QZeroConfPrivate) : Option Holder → Option DNSServiceRef
  | none => spare
  | some i => held s i

/-- The references have been used linearly so far, those that live are the ones
    of the instance, each from the call for its place, and new ones are new. -/
structure Tracked (history : List Exchange) (spare : Option DNSServiceRef) (s : QZeroConfPrivate) : Prop where
  linear : Linear unused (usesOf history)
  holding : Holding (booksOf history) (places spare s)
  source : ∀ i ref, held s i = some ref → Obtained history i.source ref
  single : ∀ source source' ref, Obtained history source ref → Obtained history source' ref → source = source'
  issued : ∀ source ref, Obtained history source ref → ref < s.next
  fresh : ∀ ref, s.next ≤ ref → booksOf history ref = .fresh
  heap : ∀ r, s.next ≤ r → s.live r = none

theorem tracked_initial : Tracked [] none {} where
  linear := trivial
  holding := by
    have hplaces : places none {} = fun _ => none := by
      funext i
      rcases i with _ | (_ | _ | _ | _) <;> rfl
    rw [hplaces]
    exact holding_unused
  source := fun i ref hheld => by cases i <;> cases hheld
  single := fun source source' ref hobtained => by simp [Obtained] at hobtained
  issued := fun source ref hobtained => by simp [Obtained] at hobtained
  fresh := fun _ _ => rfl
  heap := fun _ _ => rfl

theorem usesOf_append (history history' : List Exchange) :
    usesOf (history ++ history') = usesOf history ++ usesOf history' := List.flatMap_append

theorem usesOf_snoc (history : List Exchange) (x : Exchange) :
    usesOf (history ++ [x]) = usesOf history ++ x.uses := by
  rw [usesOf_append]
  exact congrArg (usesOf history ++ ·) (List.append_nil _)

theorem booksOf_snoc (history : List Exchange) (x : Exchange) :
    booksOf (history ++ [x]) = applyAll (booksOf history) x.uses := by
  rw [booksOf, usesOf_snoc, applyAll_append, booksOf]

theorem obtained_snoc {history : List Exchange} {x : Exchange} {source : Source} {ref : DNSServiceRef} :
    Obtained (history ++ [x]) source ref ↔ Obtained history source ref ∨ x.obtains? = some (source, ref) := by
  simp [Obtained, or_and_right, exists_or]

theorem places_update {s t : QZeroConfPrivate} {i : Holder} {ref : Option DNSServiceRef}
    (h : held t = Function.update (held s) i ref) (spare : Option DNSServiceRef) :
    places spare t = Function.update (places spare s) (some i) ref := by
  funext j
  cases j with
  | none => exact (Function.update_of_ne (by simp) ..).symm
  | some j =>
    by_cases hj : j = i
    · subst hj
      simp [places, h]
    · simp [places, h, hj]

section Tracked

variable {history : List Exchange} {spare spare' : Option DNSServiceRef} {s t : QZeroConfPrivate}

/-- A change of the state that leaves the references alone. -/
theorem Tracked.of_same (h : Tracked history spare s) (hheld : held t = held s) (hnext : s.next ≤ t.next)
    (hheap : ∀ r, t.next ≤ r → t.live r = none) : Tracked history spare t where
  linear := h.linear
  holding := by
    have hplaces : places spare t = places spare s := by
      funext i
      cases i with
      | none => rfl
      | some i => exact congrFun hheld i
    rw [hplaces]
    exact h.holding
  source := fun i ref hi => h.source i ref (hheld ▸ hi)
  single := h.single
  issued := fun source ref hobtained => Nat.lt_of_lt_of_le (h.issued source ref hobtained) hnext
  fresh := fun ref href => h.fresh ref (Nat.le_trans hnext href)
  heap := hheap

/-- One more exchange. -/
theorem Tracked.snoc (h : Tracked history spare s) {x : Exchange} (hlinear : Linear (booksOf history) x.uses)
    (hholding : Holding (applyAll (booksOf history) x.uses) (places spare' t))
    (hsource : ∀ i ref, held t i = some ref → held s i = some ref ∨ x.obtains? = some (i.source, ref))
    (hissued : ∀ source ref, x.obtains? = some (source, ref) → s.next ≤ ref ∧ ref < t.next)
    (hfresh : ∀ ref, t.next ≤ ref → applyAll (booksOf history) x.uses ref = .fresh)
    (hnext : s.next ≤ t.next) (hheap : ∀ r, t.next ≤ r → t.live r = none) :
    Tracked (history ++ [x]) spare' t where
  linear := by
    rw [usesOf_snoc]
    exact linear_append.mpr ⟨h.linear, hlinear⟩
  holding := by
    rw [booksOf_snoc]
    exact hholding
  source := fun i ref hi => obtained_snoc.mpr ((hsource i ref hi).imp_left (h.source i ref))
  single := fun source source' ref hobtained hobtained' => by
    rcases obtained_snoc.mp hobtained with hold | hnew <;> rcases obtained_snoc.mp hobtained' with hold' | hnew'
    · exact h.single source source' ref hold hold'
    · exact absurd (h.issued source ref hold) (Nat.not_lt.mpr (hissued source' ref hnew').1)
    · exact absurd (h.issued source' ref hold') (Nat.not_lt.mpr (hissued source ref hnew).1)
    · rw [hnew] at hnew'
      exact congrArg Prod.fst (Option.some.inj hnew')
  issued := fun source ref hobtained => by
    rcases obtained_snoc.mp hobtained with hold | hnew
    · exact Nat.lt_of_lt_of_le (h.issued source ref hold) hnext
    · exact (hissued source ref hnew).2
  fresh := fun ref href => by
    rw [booksOf_snoc]
    exact hfresh ref href
  heap := hheap

/-- Signals are no calls of dns_sd. -/
theorem Tracked.signal (h : Tracked history spare s) (signal : Signal SharedService) :
    Tracked (history ++ [.output (.signal signal)]) spare s :=
  h.snoc trivial h.holding (fun _ _ hi => .inl hi) (fun _ _ hobtains => by cases hobtains) h.fresh le_rfl h.heap

/-- A reference that lives is processed. -/
theorem Tracked.process (h : Tracked history spare s) {i : Holder} {ref : DNSServiceRef}
    (hi : held s i = some ref) : Tracked (history ++ [.DNSServiceProcessResult ref]) spare s := by
  have hlive : booksOf history ref = .live := (h.holding.live ref).mpr ⟨some i, hi⟩
  exact h.snoc ⟨⟨ref, rfl, hlive⟩, trivial⟩ h.holding (fun _ _ hi => .inl hi)
    (fun _ _ hobtains => by cases hobtains) h.fresh le_rfl h.heap

/-- A call puts a new reference where there is none. -/
theorem Tracked.obtain (h : Tracked history spare s) {i : Holder} (start : Start) {o : Output}
    (hempty : held s i = none) (huses : o.uses = obtained (s.newRef start))
    (hobtains : o.obtains? = (s.newRef start).map fun ref => (i.source, ref))
    (hheld : held t = Function.update (held s) i (s.newRef start)) (hnext : t.next = s.next + 1)
    (hheap : ∀ r, t.next ≤ r → t.live r = none) : Tracked (history ++ [.output o]) spare t := by
  have hunused (ref : DNSServiceRef) (href : s.newRef start = some ref) : booksOf history ref = .fresh :=
    h.fresh ref (newRef_eq_some href).ge
  have huses' : (Exchange.output o).uses = obtained (s.newRef start) := huses
  obtain ⟨hlinear, hholding⟩ := h.holding.obtain (i := some i) hempty hunused
  rw [← places_update hheld] at hholding
  rw [← huses'] at hlinear hholding
  refine h.snoc hlinear hholding (fun j ref hj => ?_) (fun source ref hsource => ?_) (fun ref href => ?_)
    (by omega) hheap
  · by_cases hji : j = i
    · subst hji
      rw [hheld, Function.update_self] at hj
      refine .inr (hobtains.trans ?_)
      rw [hj]
      rfl
    · rw [hheld, Function.update_of_ne hji] at hj
      exact .inl hj
  · rw [Exchange.obtains?, hobtains, Option.map_eq_some_iff] at hsource
    obtain ⟨_, href, hpair⟩ := hsource
    cases hpair
    rw [newRef_eq_some href, hnext]
    exact ⟨le_rfl, Nat.lt_succ_self _⟩
  · have hlt : s.next < ref := Nat.lt_of_succ_le (hnext.symm.trans_le href)
    rw [huses', applyAll_obtained_of_ne fun hsame => hlt.ne' (newRef_eq_some hsame)]
    exact h.fresh ref hlt.le

/-- `DNSServiceRefDeallocate` for the reference of a place, which is empty then. -/
theorem Tracked.deallocate (h : Tracked history spare s) {i : Option Holder}
    (hplaces : places spare' t = Function.update (places spare s) i none) (hnext : s.next ≤ t.next)
    (hheap : ∀ r, t.next ≤ r → t.live r = none) :
    Tracked (history ++ [.output (.DNSServiceRefDeallocate (places spare s i))]) spare' t := by
  obtain ⟨hlinear, hholding⟩ := h.holding.release i
  rw [← hplaces] at hholding
  refine h.snoc hlinear hholding (fun j ref hj => .inl ?_) (fun _ _ hobtains => by cases hobtains)
    (fun ref href => ?_) hnext hheap
  · have hj' : Function.update (places spare s) i none (some j) = some ref := hplaces ▸ hj
    by_cases hji : some j = i
    · rw [hji, Function.update_self] at hj'
      cases hj'
    · rwa [Function.update_of_ne hji] at hj'
  · have hfresh := h.fresh ref (hnext.trans href)
    refine (applyAll_released_of_ne fun hi => ?_).trans hfresh
    rw [(h.holding.live ref).mpr ⟨i, hi⟩] at hfresh
    cases hfresh

/-- A reference of the instance is deallocated. -/
theorem Tracked.release (h : Tracked history spare s) (i : Holder)
    (hheld : held t = Function.update (held s) i none) (hnext : s.next ≤ t.next)
    (hheap : ∀ r, t.next ≤ r → t.live r = none) :
    Tracked (history ++ [.output (.DNSServiceRefDeallocate (held s i))]) spare t :=
  h.deallocate (i := some i) (places_update hheld spare) hnext hheap

/-- The reference that a function has taken out of the instance is deallocated. -/
theorem Tracked.releaseSpare (h : Tracked history spare s) :
    Tracked (history ++ [.output (.DNSServiceRefDeallocate spare)]) none s := by
  refine h.deallocate (i := none) ?_ le_rfl h.heap
  funext j
  cases j with
  | none => exact (Function.update_self (none : Option Holder) none (places spare s)).symm
  | some j => exact (Function.update_of_ne (Option.some_ne_none j) none (places spare s)).symm

/-- A function takes a reference out of the instance. -/
theorem Tracked.take (h : Tracked history none s) (i : Holder)
    (hheld : held t = Function.update (held s) i none) (hnext : s.next ≤ t.next)
    (hheap : ∀ r, t.next ≤ r → t.live r = none) : Tracked history (held s i) t where
  linear := h.linear
  holding := by
    have hmove := h.holding.move (i := some i) (j := none) rfl (by simp)
    have hplaces : places (held s i) t =
        Function.update (Function.update (places none s) none (held s i)) (some i) none := by
      funext j
      cases j with
      | none => simp [places]
      | some j =>
        by_cases hj : j = i
        · subst hj
          simp [places, hheld]
        · simp [places, hheld, hj]
    rw [hplaces]
    exact hmove
  source := fun j ref hj => by
    by_cases hji : j = i
    · subst hji
      rw [hheld, Function.update_self] at hj
      cases hj
    · rw [hheld, Function.update_of_ne hji] at hj
      exact h.source j ref hj
  single := h.single
  issued := fun source ref hobtained => Nat.lt_of_lt_of_le (h.issued source ref hobtained) hnext
  fresh := fun ref href => h.fresh ref (hnext.trans href)
  heap := hheap

/-- The registration and the browser have different references. -/
theorem Tracked.apart (h : Tracked history spare s) {ref : DNSServiceRef} (hdnssRef : s.dnssRef = some ref) :
    s.browser ≠ some ref := fun hbrowser =>
  absurd (h.holding.apart (some .browser) (some .dnssRef) ref hbrowser hdnssRef) (by simp)

end Tracked

end qtzeroconf.bonjour
