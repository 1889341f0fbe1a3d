import QtZeroConf.Avahi.Discovery
import QtZeroConf.AvahiCore.QueryRun
import QtZeroConf.Library.Keyed

open reactive keyed

namespace qtzeroconf.avahi

instance Record.setoid : Setoid Record := ⟨Record.Same, Record.same_equivalence⟩

/-- A resource record, whatever its TTL and the case of the letters in its names. -/
abbrev Resource : Type := Quotient Record.setoid

/-- `avahi_record_equal_no_ttl`, of records that can be read. -/
def Record.equalTo (a b : Record) : Bool := avahi_record_equal_no_ttl a.val b.val = some true

theorem Record.equalTo_iff (a b : Record) : a.equalTo b = true ↔ (⟦a⟧ : Resource) = ⟦b⟧ := by
  obtain ⟨r, hr, hiff⟩ := Record.equal a b
  simp only [Record.equalTo, decide_eq_true_eq]
  rw [hr, Option.some.injEq, hiff]
  exact (Quotient.eq (r := Record.setoid)).symm

instance : DecidableEq Resource := fun a b =>
  Quotient.recOnSubsingleton₂ a b fun a b => decidable_of_iff _ (Record.equalTo_iff a b)

def Record.key (r : Record) : Key := ⟨r.val.key, r.property.1⟩

namespace cache

/-- `AvahiCacheEntryState`. -/
inductive AvahiCacheEntryState where
  | VALID
  | EXPIRY1
  | EXPIRY2
  | EXPIRY3
  | EXPIRY_FINAL
  | POOF
  | POOF_FINAL
  | GOODBYE_FINAL
  | REPLACE_FINAL
  deriving DecidableEq

/-- A record that the server hands to a cache, after it has checked that its key
    is no pattern. -/
def CacheRecord : Type := { r : Record // avahi_key_is_pattern r.val.key = false }

/-- What `last_rand` takes of a span of time. -/
def Jitter : Type := { f : Nat → Nat // ∀ n, f n ≤ n }

/-- `AvahiCacheEntry`. Times are in microseconds, and the time event of an entry
    is always at its expiry. What is said of a POOF is uninitialised before one. -/
structure AvahiCacheEntry where
  record : CacheRecord
  timestamp : Nat
  expiry : Nat
  state : AvahiCacheEntryState
  cache_flush : Bool
  origin : AvahiAddress
  poof_timestamp : Nat := 0
  poof_num : Nat := 0
  poof_address : AvahiAddress := origin

/-- What tells an entry from the others of a cache. -/
def AvahiCacheEntry.resource (e : AvahiCacheEntry) : Resource := ⟦e.record.val⟧

def AvahiCacheEntry.ttl (e : AvahiCacheEntry) : Nat := e.record.val.val.ttl.toNat

/-- `AvahiCache`, with the time and what it reads of the configuration. -/
structure AvahiCache where
  now : Nat
  n_cache_entries_max : Nat
  entries : List AvahiCacheEntry := []
  n_entries : Nat := 0
  last_rand : Jitter
  last_rand_timestamp : Nat := 0

/-- `avahi_cache_new`, at some time. -/
def avahi_cache_new (now n_cache_entries_max : Nat) (last_rand : Jitter) : AvahiCache :=
  { now := now, n_cache_entries_max := n_cache_entries_max, last_rand := last_rand }

inductive Output where
  | notify (record : CacheRecord) (event : AvahiBrowserEvent)
  | post_query (key : Key)

/-- An entry is overwritten by what became of it. -/
def AvahiCache.put (e : AvahiCacheEntry) (c : AvahiCache) : AvahiCache :=
  { c with entries := replace AvahiCacheEntry.resource e c.entries }

/-- `remove_entry`. -/
def remove_entry (e : AvahiCacheEntry) : Action AvahiCache Output := fun c =>
  ({ c with
      entries := c.entries.filter fun x => x.resource ≠ e.resource
      n_entries := c.n_entries - 1 }, [.notify e.record .AVAHI_BROWSER_REMOVE])

/-- `lookup_key`: the entries of one key, which hang together. -/
def lookup_key (c : AvahiCache) (k : Key) : List AvahiCacheEntry :=
  c.entries.filter fun e => e.record.val.key.equalTo k

/-- `avahi_cache_walk`: the entries that the callback is called for. -/
def avahi_cache_walk (c : AvahiCache) (pattern : Key) : List AvahiCacheEntry :=
  if avahi_key_is_pattern pattern.val then
    c.entries.filter fun e => avahi_key_pattern_match pattern.val e.record.val.key.val = some true
  else lookup_key c pattern

/-- `lookup_record`. -/
def lookup_record (c : AvahiCache) (r : CacheRecord) : Option AvahiCacheEntry :=
  (avahi_cache_walk c r.val.key).find? fun e => e.record.val.equalTo r.val

/-- `next_expiry`; `rand` is a new random number. -/
def next_expiry (rand : Jitter) (e : AvahiCacheEntry) (percent : Nat) (c : AvahiCache) : AvahiCache :=
  let usec := e.ttl * 10000
  let left := usec * percent
  let right := usec * (percent + 2)
  let now := c.now / 1000000
  let c := if c.last_rand_timestamp + 10 ≤ now then { c with last_rand := rand, last_rand_timestamp := now } else c
  c.put { e with expiry := e.timestamp + (left + c.last_rand.val (right - left)) }

/-- `expire_in_one_second`. -/
def expire_in_one_second (now : Nat) (state : AvahiCacheEntryState) (e : AvahiCacheEntry) : AvahiCacheEntry :=
  { e with state := state, expiry := now + 1000000 }

/-- `elapse_func`; `refresh` is what `avahi_querier_shall_refresh_cache` answers. -/
def elapse_func (refresh : Bool) (rand : Jitter) (e : AvahiCacheEntry) : Action AvahiCache Output :=
  let again (state : AvahiCacheEntryState) (percent : Nat) : Action AvahiCache Output :=
    Action.andThen (if refresh then Action.emit (.post_query e.record.val.key) else Action.skip)
      (Action.update (next_expiry rand { e with state := state } percent))
  match e.state with
  | .EXPIRY_FINAL | .POOF_FINAL | .GOODBYE_FINAL | .REPLACE_FINAL => remove_entry e
  | .VALID | .POOF => again .EXPIRY1 85
  | .EXPIRY1 => again .EXPIRY2 90
  | .EXPIRY2 => again .EXPIRY3 95
  | .EXPIRY3 => again .EXPIRY_FINAL 100

/-- The loop of `avahi_cache_update` over the entries of the key of a unique
    record. -/
def flushLoop (l : List AvahiCacheEntry) (c : AvahiCache) : AvahiCache :=
  l.foldl (fun c e =>
    if 1000000 < c.now - e.timestamp then c.put (expire_in_one_second c.now .REPLACE_FINAL e) else c) c

/-- `avahi_cache_update`. -/
def avahi_cache_update (rand : Jitter) (r : CacheRecord) (cache_flush : Bool) (a : AvahiAddress) :
    Action AvahiCache Output := fun c =>
  if r.val.val.ttl = 0 then
    match lookup_record c r with
    | some e => (c.put (expire_in_one_second c.now .GOODBYE_FINAL e), [])
    | none => (c, [])
  else
    let c := if cache_flush then flushLoop (lookup_key c r.val.key) c else c
    match (lookup_key c r.val.key).find? fun e => e.record.val.equalTo r.val with
    | some e =>
      let e := { e with record := r, origin := a, timestamp := c.now, state := .VALID, cache_flush := cache_flush }
      (next_expiry rand e 80 c, [])
    | none =>
      if c.n_cache_entries_max ≤ c.n_entries then (c, [])
      else
        let e := { record := r, origin := a, timestamp := c.now, expiry := c.now, state := .VALID, cache_flush := cache_flush }
        (next_expiry rand e 80 { c with entries := e :: c.entries, n_entries := c.n_entries + 1 },
          [.notify r .AVAHI_BROWSER_NEW])

/-- `avahi_cache_flush`. -/
def avahi_cache_flush : Action AvahiCache Output := fun c => Action.forEach remove_entry c.entries c

/-- `start_poof_callback`. -/
def start_poof_callback (now : Nat) (a : AvahiAddress) (e : AvahiCacheEntry) : AvahiCacheEntry :=
  match e.state with
  | .VALID => { e with state := .POOF, poof_address := a, poof_timestamp := now, poof_num := 0 }
  | .POOF =>
    if now - e.poof_timestamp < 1000000 then e
    else
      let e := { e with poof_timestamp := now, poof_address := a, poof_num := e.poof_num + 1 }
      if 3 < e.poof_num then expire_in_one_second now .POOF_FINAL e else e
  | _ => e

/-- `avahi_cache_start_poof`. -/
def avahi_cache_start_poof (key : Key) (a : AvahiAddress) (c : AvahiCache) : AvahiCache :=
  (avahi_cache_walk c key).foldl (fun c e => c.put (start_poof_callback c.now a e)) c

/-- `avahi_cache_stop_poof`. -/
def avahi_cache_stop_poof (rand : Jitter) (record : CacheRecord) (a : AvahiAddress) (c : AvahiCache) : AvahiCache :=
  match lookup_record c record with
  | none => c
  | some e =>
    if (e.state = .POOF ∨ e.state = .POOF_FINAL) ∧ a = e.poof_address then
      next_expiry rand { e with state := .VALID } 80 c
    else c

inductive Event where
  | wait (usec : Nat)
  | elapse (record : CacheRecord) (refresh : Bool) (rand : Jitter)
  | update (rand : Jitter) (record : CacheRecord) (cache_flush : Bool) (a : AvahiAddress)
  | start_poof (key : Key) (a : AvahiAddress)
  | stop_poof (rand : Jitter) (record : CacheRecord) (a : AvahiAddress)
  | flush

/-- One step of a cache. The time event of an entry runs when it is due. -/
def step : Step AvahiCache Event Output := fun c event =>
  match event with
  | .wait usec => ({ c with now := c.now + usec }, [])
  | .elapse record refresh rand =>
    match lookup_record c record with
    | some e => if e.expiry ≤ c.now then elapse_func refresh rand e c else (c, [])
    | none => (c, [])
  | .update rand record cache_flush a => avahi_cache_update rand record cache_flush a c
  | .start_poof key a => (avahi_cache_start_poof key a c, [])
  | .stop_poof rand record a => (avahi_cache_stop_poof rand record a c, [])
  | .flush => avahi_cache_flush c

end cache

end qtzeroconf.avahi
