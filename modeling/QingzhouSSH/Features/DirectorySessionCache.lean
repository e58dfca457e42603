/-
  QingzhouSSH.Features.DirectorySessionCache — listings that the file browser keeps.

  The cache of `directorySessionCache.ts`, with the promises that its loads have made.  A
  load that finds no listing starts a loader; what the loader gives is handled later, by
  the callback of `then` and after it that of `finally`, in any order with other calls.
  A loader does not call the cache while it is being started.

  Main results:
    * `flights_step`, `listings_step` — what one call or callback preserves;
    * `tracked_iff` — the tracked requests are those in flight that no invalidation covers;
    * `eviction_is_lru` — a listing that is dropped to make room is the least recently used;
    * `directory_cache_never_stale` — over every run, no listing is older than an invalidation.
-/
import QingzhouSSH.Core.Error
import QingzhouSSH.Lib.InsertionMap

namespace QingzhouSSH.Features.DirectorySessionCache

open QingzhouSSH.Lib

/-! ## §1. Keys. -/

abbrev Key := Text

def remotePrefix : Text := "remote".toList ++ ['\x00']

def localPrefix : Text := "local".toList ++ ['\x00']

def remoteKey (serverId path : Text) : Key := remotePrefix ++ serverId ++ ['\x00'] ++ path

def localKey (path : Option Text) : Key := localPrefix ++ path.getD "<data-root>".toList

/-- The arguments of the two members of every pair of methods, such as `peekRemote` and
`peekLocal`. -/
inductive Place where
  | remote (serverId path : Text)
  | local (path : Option Text)
  deriving Repr, DecidableEq

def Place.key : Place → Key
  | .remote serverId path => remoteKey serverId path
  | .local path => localKey path

/-! ## §2. The state. -/

/-- The settings that the constructor accepts; times are in milliseconds. -/
structure Settings where
  maximumEntries : Nat
  freshnessMs : Int
  holds_one : 1 ≤ maximumEntries
  lasts : 0 < freshnessMs

/-- The checks of the constructor. -/
def Settings.create (maximumEntries freshnessMs : Int) : Except Text Settings :=
  if h : maximumEntries < 1 then .error "目录缓存容量必须大于 0".toList
  else if h' : freshnessMs ≤ 0 then .error "目录缓存有效期必须大于 0".toList
  else .ok ⟨maximumEntries.toNat, freshnessMs, by omega, by omega⟩

variable {Listing : Type}

structure CachedDirectory (Listing : Type) where
  listing : Listing
  fetchedAt : Int

/-- How far a promise has come; a loader that has failed has settled without a listing. -/
inductive Phase (Listing : Type) where
  | loading
  | settled (listing : Option Listing)
  | finished (listing : Option Listing)

structure Request (Listing : Type) where
  key : Key
  phase : Phase Listing

/-- The maps of the cache.  A promise is known by its place among the `requests`. -/
structure Session (Listing : Type) where
  listings : InsertionMap Key (CachedDirectory Listing)
  inFlight : InsertionMap Key Nat
  remotePaths : InsertionMap Text Text
  requests : List (Request Listing)

def Session.initial : Session Listing := ⟨.empty, .empty, .empty, []⟩

/-! ## §3. Calls and callbacks. -/

/-- What a call returns, or what a callback has done. -/
inductive Reply (Listing : Type) where
  | found (listing : Option Listing)
  | resolved (listing : Listing)
  | pending (request : Nat)
  | started (request : Nat)
  | thrown
  | path (path : Text)
  | done
  | stored (key : Key)
  | ignored

inductive Event (Listing : Type) where
  /-- `peekRemote`, `peekLocal`. -/
  | peek (place : Place)
  /-- `freshRemote`, `freshLocal`; the clock shows `now`. -/
  | fresh (place : Place) (now : Int)
  /-- `loadRemote`, `loadLocal`, and with `force` `refreshRemote`, `refreshLocal`; the call
  of the loader may throw. -/
  | load (place : Place) (force : Bool) (now : Int) (throws : Bool)
  /-- `invalidateRemote`, `invalidateLocal`. -/
  | invalidate (place : Place)
  | rememberRemotePath (serverId path : Text)
  | lastRemotePath (serverId : Text)
  | clearServer (serverId : Text)
  | clear
  /-- The callback of `then`, for a loader that has given a listing. -/
  | fulfilled (request : Nat) (listing : Listing) (now : Int)
  /-- A loader has failed; no callback of `then` runs. -/
  | rejected (request : Nat)
  /-- The callback of `finally`. -/
  | finished (request : Nat)

def Session.peek (key : Key) (s : Session Listing) : Option Listing × Session Listing :=
  ((s.listings.get? key).map CachedDirectory.listing,
    { s with listings := s.listings.touch key })

def Session.fresh (settings : Settings) (key : Key) (now : Int) (s : Session Listing) :
    Option Listing × Session Listing :=
  match s.listings.get? key with
  | none => (none, s)
  | some cached =>
      let age := now - cached.fetchedAt
      (if 0 ≤ age ∧ age < settings.freshnessMs then some cached.listing else none,
        { s with listings := s.listings.touch key })

def Session.load (settings : Settings) (key : Key) (force : Bool) (now : Int) (throws : Bool)
    (s : Session Listing) : Reply Listing × Session Listing :=
  let looked := if force then (none, s) else s.fresh settings key now
  let s := looked.2
  match looked.1 with
  | some listing => (.resolved listing, s)
  | none =>
      match s.inFlight.get? key with
      | some request => (.pending request, s)
      | none =>
          if throws then (.thrown, s)
          else
            let request := s.requests.length
            (.started request,
              { s with inFlight := s.inFlight.set key request,
                       requests := s.requests ++ [⟨key, .loading⟩] })

def Session.clearServer (serverId : Text) (s : Session Listing) : Session Listing :=
  let keep (key : Key) : Bool := !(remotePrefix ++ serverId ++ ['\x00']).isPrefixOf key
  { s with listings := s.listings.filterKeys keep, inFlight := s.inFlight.filterKeys keep,
           remotePaths := s.remotePaths.delete serverId }

def Session.setPhase (request : Nat) (phase : Phase Listing) (s : Session Listing) :
    Session Listing :=
  { s with requests := s.requests.modify request fun r => { r with phase := phase } }

/-- The callback of `then`; `put` and `evict` are its two statements on the listings. -/
def Session.store (settings : Settings) (request : Nat) (key : Key) (listing : Listing)
    (now : Int) (s : Session Listing) : Reply Listing × Session Listing :=
  if s.inFlight.get? key = some request then
    (.stored key,
      { s with listings :=
                 (s.listings.put key ⟨listing, now⟩).evict settings.maximumEntries })
  else (.ignored, s)

/-- One call, or one callback of a promise that is at that point. -/
def step (settings : Settings) (event : Event Listing) (s : Session Listing) :
    Option (Reply Listing × Session Listing) :=
  match event with
  | .peek place => some (.found (s.peek place.key).1, (s.peek place.key).2)
  | .fresh place now =>
      some (.found (s.fresh settings place.key now).1, (s.fresh settings place.key now).2)
  | .load place force now throws => some (s.load settings place.key force now throws)
  | .invalidate place =>
      some (.done, { s with listings := s.listings.delete place.key,
                            inFlight := s.inFlight.delete place.key })
  | .rememberRemotePath serverId path =>
      some (.done, { s with remotePaths := s.remotePaths.set serverId path })
  | .lastRemotePath serverId => some (.path ((s.remotePaths.get? serverId).getD ['/']), s)
  | .clearServer serverId => some (.done, s.clearServer serverId)
  | .clear => some (.done, { s with listings := .empty, inFlight := .empty, remotePaths := .empty })
  | .fulfilled request listing now =>
      match s.requests[request]? with
      | some ⟨key, .loading⟩ =>
          some ((s.setPhase request (.settled (some listing))).store settings request key
            listing now)
      | _ => none
  | .rejected request =>
      match s.requests[request]? with
      | some ⟨_, .loading⟩ => some (.ignored, s.setPhase request (.settled none))
      | _ => none
  | .finished request =>
      match s.requests[request]? with
      | some ⟨key, .settled listing⟩ =>
          let s := s.setPhase request (.finished listing)
          some (.done, if s.inFlight.get? key = some request
            then { s with inFlight := s.inFlight.delete key } else s)
      | _ => none

/-! ## §4. Runs. -/

/-- A call or callback, with what came of it. -/
structure Record (Listing : Type) where
  event : Event Listing
  reply : Reply Listing

/-- The records of a run, the latest first, and the state after it. -/
inductive Run (settings : Settings) : List (Record Listing) → Session Listing → Prop where
  | start : Run settings [] .initial
  | step {history : List (Record Listing)} {s s' : Session Listing} {event : Event Listing}
      {reply : Reply Listing} (hrun : Run settings history s)
      (hstep : step settings event s = some (reply, s')) :
      Run settings (⟨event, reply⟩ :: history) s'

/-- The invalidations that cover a key. -/
def Record.Covers (record : Record Listing) (key : Key) : Prop :=
  match record.event with
  | .invalidate place => place.key = key
  | .clearServer serverId => (remotePrefix ++ serverId ++ ['\x00']) <+: key
  | .clear => True
  | _ => False

/-- The loader of this request has been started for the key. -/
def Record.Starts (record : Record Listing) (request : Nat) (key : Key) : Prop :=
  match record.event, record.reply with
  | .load place _ _ _, .started started => started = request ∧ place.key = key
  | _, _ => False

/-- The listing at the key is looked up or stored. -/
def Record.Uses (record : Record Listing) (key : Key) : Prop :=
  match record.event, record.reply with
  | .peek place, _ => place.key = key
  | .fresh place _, _ => place.key = key
  | .load place false _ _, _ => place.key = key
  | .fulfilled _ _ _, .stored stored => stored = key
  | _, _ => False

def Started (history : List (Record Listing)) (request : Nat) (key : Key) : Prop :=
  ∃ record ∈ history, record.Starts request key

/-- The key has been invalidated after the loader of the request was started. -/
def Obsolete : List (Record Listing) → Nat → Key → Prop
  | [], _, _ => False
  | record :: earlier, request, key =>
      (record.Covers key ∧ Started earlier request key) ∨ Obsolete earlier request key

/-- The loader of the request has given this listing. -/
def Gave (history : List (Record Listing)) (request : Nat) (listing : Listing) : Prop :=
  ∃ record ∈ history, ∃ now, record.event = .fulfilled request listing now

/-- In the last part of the history, one key has been used and the other has not. -/
def MoreRecent (history : List (Record Listing)) (newer older : Key) : Prop :=
  ∃ later, later <+: history ∧ (∃ record ∈ later, record.Uses newer)
    ∧ ∀ record ∈ later, ¬ record.Uses older

/-- The loader was started for the key, and the key has not been invalidated since. -/
def Current : List (Record Listing) → Nat → Key → Prop
  | [], _, _ => False
  | record :: earlier, request, key =>
      record.Starts request key ∨ (¬ record.Covers key ∧ Current earlier request key)

/-! ## §5. What a step does to the listings. -/

inductive ListingEffect (settings : Settings) (record : Record Listing)
    (s s' : Session Listing) : Prop where
  | keep (hsame : s'.listings = s.listings) (hcovers : ∀ key, ¬ record.Covers key)
      (huses : ∀ key, ¬ record.Uses key)
  | touch (key : Key) (htouch : s'.listings = s.listings.touch key)
      (hcovers : ∀ key, ¬ record.Covers key) (huses : ∀ other, record.Uses other ↔ key = other)
  | drop (keep : Key → Bool) (hdrop : s'.listings = s.listings.filterKeys keep)
      (hcovers : ∀ key, record.Covers key ↔ keep key = false) (huses : ∀ key, ¬ record.Uses key)
  | store (request : Nat) (key : Key) (listing : Listing) (now : Int)
      (hstore : s'.listings
        = (s.listings.put key ⟨listing, now⟩).evict settings.maximumEntries)
      (htracked : s.inFlight.get? key = some request)
      (hrecord : record = ⟨.fulfilled request listing now, .stored key⟩)

variable {settings : Settings} {s s' : Session Listing}

theorem fresh_listings (key : Key) (now : Int) :
    (s.fresh settings key now).2 = { s with listings := s.listings.touch key } := by
  unfold Session.fresh InsertionMap.touch
  cases hget : s.listings.get? key with
  | none => rfl
  | some cached => rfl

theorem load_listings (key : Key) (force : Bool) (now : Int) (throws : Bool) :
    (s.load settings key force now throws).2.listings
      = if force then s.listings else s.listings.touch key := by
  have hlooked : (if force then ((none : Option Listing), s)
      else s.fresh settings key now).2.listings
      = if force then s.listings else s.listings.touch key := by
    cases force with
    | true => rfl
    | false => exact congrArg Session.listings (fresh_listings key now)
  unfold Session.load
  dsimp only
  generalize (if force then ((none : Option Listing), s) else s.fresh settings key now) = looked
    at hlooked ⊢
  cases looked.1 with
  | some listing => exact hlooked
  | none =>
      cases looked.2.inFlight.get? key with
      | some request => exact hlooked
      | none =>
          cases throws with
          | true => exact hlooked
          | false => exact hlooked

/-- What the three callbacks do, once their promise is at that point. -/
theorem step_fulfilled {listing : Listing} {now : Int} {reply : Reply Listing} {request : Nat}
    (h : step settings (.fulfilled request listing now) s = some (reply, s')) :
    ∃ key, s.requests[request]? = some ⟨key, .loading⟩
      ∧ (s.setPhase request (.settled (some listing))).store settings request key listing now
        = (reply, s') := by
  unfold step at h
  dsimp only at h
  cases hrequest : s.requests[request]? with
  | none =>
      rw [hrequest] at h
      cases h
  | some found =>
      rw [hrequest] at h
      obtain ⟨key, phase⟩ := found
      cases phase with
      | loading => exact ⟨key, rfl, Option.some.inj h⟩
      | settled result => cases h
      | finished result => cases h

theorem step_rejected {reply : Reply Listing} {request : Nat}
    (h : step settings (.rejected request) s = some (reply, s')) :
    ∃ key, s.requests[request]? = some ⟨key, .loading⟩
      ∧ s' = s.setPhase request (.settled none) := by
  unfold step at h
  dsimp only at h
  cases hrequest : s.requests[request]? with
  | none =>
      rw [hrequest] at h
      cases h
  | some found =>
      rw [hrequest] at h
      obtain ⟨key, phase⟩ := found
      cases phase with
      | loading => exact ⟨key, rfl, (Prod.mk.inj (Option.some.inj h)).2.symm⟩
      | settled result => cases h
      | finished result => cases h

theorem step_finished {reply : Reply Listing} {request : Nat}
    (h : step settings (.finished request) s = some (reply, s')) :
    ∃ key result, s.requests[request]? = some ⟨key, .settled result⟩
      ∧ s'.listings = s.listings
      ∧ s'.inFlight = (if s.inFlight.get? key = some request
        then s.inFlight.delete key else s.inFlight)
      ∧ s'.requests = s.requests.modify request fun r => { r with phase := .finished result } := by
  unfold step at h
  dsimp only at h
  cases hrequest : s.requests[request]? with
  | none =>
      rw [hrequest] at h
      cases h
  | some found =>
      rw [hrequest] at h
      obtain ⟨key, phase⟩ := found
      cases phase with
      | loading => cases h
      | finished result => cases h
      | settled result =>
          obtain ⟨-, rfl⟩ := Prod.mk.inj (Option.some.inj h)
          refine ⟨key, result, rfl, ?_⟩
          by_cases htracked : s.inFlight.get? key = some request
          · rw [if_pos htracked, if_pos (show (s.setPhase request _).inFlight.get? key = _
              from htracked)]
            exact ⟨rfl, rfl, rfl⟩
          · rw [if_neg htracked, if_neg (show ¬ (s.setPhase request _).inFlight.get? key = _
              from htracked)]
            exact ⟨rfl, rfl, rfl⟩

/-- **What a step does to the listings.** -/
theorem listingEffect_of_step {event : Event Listing} {reply : Reply Listing}
    (h : step settings event s = some (reply, s')) :
    ListingEffect settings ⟨event, reply⟩ s s' := by
  cases event with
  | peek place =>
      obtain ⟨-, rfl⟩ := Prod.mk.inj (Option.some.inj h)
      exact .touch place.key rfl (fun _ => not_false) fun _ => Iff.rfl
  | fresh place now =>
      obtain ⟨-, rfl⟩ := Prod.mk.inj (Option.some.inj h)
      exact .touch place.key (congrArg Session.listings (fresh_listings _ _))
        (fun _ => not_false) fun _ => Iff.rfl
  | load place force now throws =>
      have hlistings := @load_listings _ settings s place.key force now throws
      rw [show s.load settings place.key force now throws = (reply, s') from Option.some.inj h]
        at hlistings
      cases force with
      | true => exact .keep hlistings (fun _ => not_false) fun _ => not_false
      | false => exact .touch place.key hlistings (fun _ => not_false) fun _ => Iff.rfl
  | invalidate place =>
      obtain ⟨-, rfl⟩ := Prod.mk.inj (Option.some.inj h)
      refine .drop (fun other => other ≠ place.key) rfl ?_ fun _ => not_false
      intro key
      show place.key = key ↔ decide (key ≠ place.key) = false
      rw [decide_eq_false_iff_not, not_not, eq_comm]
  | rememberRemotePath serverId path =>
      obtain ⟨-, rfl⟩ := Prod.mk.inj (Option.some.inj h)
      exact .keep rfl (fun _ => not_false) fun _ => not_false
  | lastRemotePath serverId =>
      obtain ⟨-, rfl⟩ := Prod.mk.inj (Option.some.inj h)
      exact .keep rfl (fun _ => not_false) fun _ => not_false
  | clearServer serverId =>
      obtain ⟨-, rfl⟩ := Prod.mk.inj (Option.some.inj h)
      refine .drop (fun key => !(remotePrefix ++ serverId ++ ['\x00']).isPrefixOf key) rfl ?_
        fun _ => not_false
      intro key
      show (remotePrefix ++ serverId ++ ['\x00']) <+: key ↔ _
      rw [Bool.not_eq_false', List.isPrefixOf_iff_prefix]
  | clear =>
      obtain ⟨-, rfl⟩ := Prod.mk.inj (Option.some.inj h)
      refine .drop (fun _ => false) ?_ ?_ fun _ => not_false
      · exact InsertionMap.filterKeys_none.symm
      · exact fun _ => iff_of_true trivial rfl
  | fulfilled request listing now =>
      obtain ⟨key, -, hstore⟩ := step_fulfilled h
      unfold Session.store at hstore
      by_cases htracked : s.inFlight.get? key = some request
      · rw [if_pos (show (s.setPhase request _).inFlight.get? key = _ from htracked)] at hstore
        obtain ⟨rfl, rfl⟩ := Prod.mk.inj hstore
        exact .store request key listing now rfl htracked rfl
      · rw [if_neg (show ¬ (s.setPhase request _).inFlight.get? key = _ from htracked)] at hstore
        obtain ⟨rfl, rfl⟩ := Prod.mk.inj hstore
        exact .keep rfl (fun _ => not_false) fun _ => not_false
  | rejected request =>
      obtain ⟨_, -, rfl⟩ := step_rejected h
      exact .keep rfl (fun _ => not_false) fun _ => not_false
  | finished request =>
      obtain ⟨_, _, -, hlistings, -⟩ := step_finished h
      exact .keep hlistings (fun _ => not_false) fun _ => not_false

/-! ## §6. What a step does to the requests. -/

def Phase.Unfinished : Phase Listing → Prop
  | .finished _ => False
  | _ => True

inductive FlightEffect (record : Record Listing) (s s' : Session Listing) : Prop where
  | keep (hflights : s'.inFlight = s.inFlight) (hrequests : s'.requests = s.requests)
      (hcovers : ∀ key, ¬ record.Covers key) (hstarts : ∀ request key, ¬ record.Starts request key)
  | start (key : Key) (hfree : s.inFlight.get? key = none)
      (hflights : s'.inFlight = s.inFlight.set key s.requests.length)
      (hrequests : s'.requests = s.requests ++ [⟨key, .loading⟩])
      (hcovers : ∀ key, ¬ record.Covers key)
      (hstarts : ∀ request other,
        record.Starts request other ↔ s.requests.length = request ∧ key = other)
  | drop (keep : Key → Bool) (hflights : s'.inFlight = s.inFlight.filterKeys keep)
      (hrequests : s'.requests = s.requests)
      (hcovers : ∀ key, record.Covers key ↔ keep key = false)
      (hstarts : ∀ request key, ¬ record.Starts request key)
  | settle (request : Nat) (key : Key) (result : Option Listing)
      (hrequest : s.requests[request]? = some ⟨key, .loading⟩)
      (hflights : s'.inFlight = s.inFlight)
      (hrequests : s'.requests
        = s.requests.modify request fun r => { r with phase := .settled result })
      (hcovers : ∀ key, ¬ record.Covers key) (hstarts : ∀ request key, ¬ record.Starts request key)
  | finish (request : Nat) (key : Key) (result : Option Listing)
      (hrequest : s.requests[request]? = some ⟨key, .settled result⟩)
      (hflights : s'.inFlight = if s.inFlight.get? key = some request
        then s.inFlight.delete key else s.inFlight)
      (hrequests : s'.requests
        = s.requests.modify request fun r => { r with phase := .finished result })
      (hcovers : ∀ key, ¬ record.Covers key) (hstarts : ∀ request key, ¬ record.Starts request key)

theorem fresh_flights (key : Key) (now : Int) :
    (s.fresh settings key now).2.inFlight = s.inFlight
      ∧ (s.fresh settings key now).2.requests = s.requests := by
  rw [fresh_listings]
  exact ⟨rfl, rfl⟩

theorem load_flights (place : Place) (force : Bool) (now : Int) (throws : Bool) :
    FlightEffect
      ⟨.load place force now throws, (s.load settings place.key force now throws).1⟩ s
      (s.load settings place.key force now throws).2 := by
  have hlooked : (if force then ((none : Option Listing), s)
        else s.fresh settings place.key now).2.inFlight = s.inFlight
      ∧ (if force then ((none : Option Listing), s)
        else s.fresh settings place.key now).2.requests = s.requests := by
    cases force with
    | true => exact ⟨rfl, rfl⟩
    | false => exact fresh_flights place.key now
  unfold Session.load
  dsimp only
  generalize (if force then ((none : Option Listing), s)
    else s.fresh settings place.key now) = looked at hlooked ⊢
  obtain ⟨hflights, hrequests⟩ := hlooked
  cases looked.1 with
  | some listing => exact .keep hflights hrequests (fun _ => not_false) fun _ _ => not_false
  | none =>
      cases hget : looked.2.inFlight.get? place.key with
      | some request => exact .keep hflights hrequests (fun _ => not_false) fun _ _ => not_false
      | none =>
          cases throws with
          | true => exact .keep hflights hrequests (fun _ => not_false) fun _ _ => not_false
          | false =>
              rw [hflights] at hget
              refine .start place.key hget ?_ ?_ (fun _ => not_false) ?_
              · show looked.2.inFlight.set place.key looked.2.requests.length = _
                rw [hflights, hrequests]
              · show looked.2.requests ++ _ = _
                rw [hrequests]
              · intro request other
                show looked.2.requests.length = request ∧ place.key = other ↔ _
                rw [hrequests]

/-- **What a step does to the requests.** -/
theorem flightEffect_of_step {event : Event Listing} {reply : Reply Listing}
    (h : step settings event s = some (reply, s')) : FlightEffect ⟨event, reply⟩ s s' := by
  cases event with
  | peek place =>
      obtain ⟨-, rfl⟩ := Prod.mk.inj (Option.some.inj h)
      exact .keep rfl rfl (fun _ => not_false) fun _ _ => not_false
  | fresh place now =>
      obtain ⟨-, rfl⟩ := Prod.mk.inj (Option.some.inj h)
      have hfresh := @fresh_flights _ settings s place.key now
      exact .keep hfresh.1 hfresh.2 (fun _ => not_false) fun _ _ => not_false
  | load place force now throws =>
      have hload := @load_flights _ settings s place force now throws
      rw [show s.load settings place.key force now throws = (reply, s') from Option.some.inj h]
        at hload
      exact hload
  | invalidate place =>
      obtain ⟨rfl, rfl⟩ := Prod.mk.inj (Option.some.inj h)
      refine .drop (fun other => other ≠ place.key) rfl rfl ?_ fun _ _ => not_false
      intro key
      show place.key = key ↔ decide (key ≠ place.key) = false
      rw [decide_eq_false_iff_not, not_not, eq_comm]
  | rememberRemotePath serverId path =>
      obtain ⟨-, rfl⟩ := Prod.mk.inj (Option.some.inj h)
      exact .keep rfl rfl (fun _ => not_false) fun _ _ => not_false
  | lastRemotePath serverId =>
      obtain ⟨-, rfl⟩ := Prod.mk.inj (Option.some.inj h)
      exact .keep rfl rfl (fun _ => not_false) fun _ _ => not_false
  | clearServer serverId =>
      obtain ⟨rfl, rfl⟩ := Prod.mk.inj (Option.some.inj h)
      refine .drop (fun key => !(remotePrefix ++ serverId ++ ['\x00']).isPrefixOf key) rfl rfl ?_
        fun _ _ => not_false
      intro key
      show (remotePrefix ++ serverId ++ ['\x00']) <+: key ↔ _
      rw [Bool.not_eq_false', List.isPrefixOf_iff_prefix]
  | clear =>
      obtain ⟨rfl, rfl⟩ := Prod.mk.inj (Option.some.inj h)
      refine .drop (fun _ => false) ?_ rfl ?_ fun _ _ => not_false
      · exact InsertionMap.filterKeys_none.symm
      · exact fun _ => iff_of_true trivial rfl
  | fulfilled request listing now =>
      obtain ⟨key, hrequest, hstore⟩ := step_fulfilled h
      have hboth : s'.inFlight = s.inFlight ∧ s'.requests
          = s.requests.modify request fun r => { r with phase := .settled (some listing) } := by
        rw [show s' = _ from (congrArg Prod.snd hstore).symm]
        unfold Session.store
        split
        next => exact ⟨rfl, rfl⟩
        next => exact ⟨rfl, rfl⟩
      exact .settle request key (some listing) hrequest hboth.1 hboth.2
        (fun _ => not_false) fun _ _ => not_false
  | rejected request =>
      obtain ⟨key, hrequest, rfl⟩ := step_rejected h
      exact .settle request key none hrequest rfl rfl (fun _ => not_false) fun _ _ => not_false
  | finished request =>
      obtain ⟨key, result, hrequest, -, hflights, hrequests⟩ := step_finished h
      exact .finish request key result hrequest hflights hrequests (fun _ => not_false)
        fun _ _ => not_false

/-! ## §7. Requests along a run. -/

variable {history : List (Record Listing)} {record : Record Listing} {request : Nat} {key : Key}

theorem started_cons : Started (record :: history) request key
    ↔ record.Starts request key ∨ Started history request key := by
  unfold Started
  rw [List.exists_mem_cons_iff]

theorem Current.started (h : Current history request key) : Started history request key := by
  induction history with
  | nil => exact h.elim
  | cons record history ih =>
      rw [started_cons]
      exact h.imp_right fun hearlier => ih hearlier.2

/-- A request that no invalidation has made obsolete is current. -/
theorem current_of_not_obsolete (hstarted : Started history request key)
    (h : ¬ Obsolete history request key) : Current history request key := by
  induction history with
  | nil => exact absurd hstarted (by simp [Started])
  | cons record history ih =>
      rcases started_cons.mp hstarted with hstarts | hearlier
      · exact Or.inl hstarts
      · refine Or.inr ⟨fun hcovers => h (Or.inl ⟨hcovers, hearlier⟩), ih hearlier ?_⟩
        exact fun hobsolete => h (Or.inr hobsolete)

/-- What holds of the requests and the tracked ones after a run. -/
structure Flights (history : List (Record Listing)) (s : Session Listing) : Prop where
  started : ∀ request key, Started history request key →
    ∃ phase, s.requests[request]? = some ⟨key, phase⟩
  tracked : ∀ key request, s.inFlight.get? key = some request → Current history request key
    ∧ ∃ phase : Phase Listing, s.requests[request]? = some ⟨key, phase⟩ ∧ phase.Unfinished
  complete : ∀ request key (phase : Phase Listing), s.requests[request]? = some ⟨key, phase⟩ →
    phase.Unfinished → Current history request key → s.inFlight.get? key = some request

/-- An earlier request stays current when the step covers no key of its own. -/
theorem Current.cons (h : Current history request key) (hcovers : ¬ record.Covers key) :
    Current (record :: history) request key :=
  Or.inr ⟨hcovers, h⟩

theorem Current.of_cons (h : Current (record :: history) request key)
    (hstarts : ¬ record.Starts request key) : ¬ record.Covers key ∧ Current history request key :=
  h.resolve_left hstarts

/-- The phase of one request changes, and no key is lost. -/
theorem requests_modify {phase phase' : Phase Listing} {other : Nat} {otherKey : Key}
    (hrequest : s.requests[request]? = some ⟨key, phase⟩) {new : Phase Listing}
    (hrequests : s'.requests = s.requests.modify request fun r => { r with phase := new }) :
    s'.requests[other]? = some ⟨otherKey, phase'⟩
      ↔ (other = request ∧ otherKey = key ∧ phase' = new)
        ∨ (other ≠ request ∧ s.requests[other]? = some ⟨otherKey, phase'⟩) := by
  rw [hrequests, List.getElem?_modify]
  by_cases h : request = other
  · rw [← h, hrequest]
    simp [eq_comm]
  · have hne : other ≠ request := fun heq => h heq.symm
    simp [h, hne]

theorem started_modify {phase new : Phase Listing} {other : Nat} {otherKey : Key}
    (hflights : Flights history s) (hrequest : s.requests[request]? = some ⟨key, phase⟩)
    (hrequests : s'.requests = s.requests.modify request fun r => { r with phase := new })
    (hstarted : Started history other otherKey) :
    ∃ phase', s'.requests[other]? = some ⟨otherKey, phase'⟩ := by
  obtain ⟨phase', hphase⟩ := hflights.started other otherKey hstarted
  by_cases h : other = request
  · rw [h, hrequest] at hphase
    obtain ⟨rfl, -⟩ := Request.mk.inj (Option.some.inj hphase)
    exact ⟨_, (requests_modify hrequest hrequests).mpr (Or.inl ⟨h, rfl, rfl⟩)⟩
  · exact ⟨phase', (requests_modify hrequest hrequests).mpr (Or.inr ⟨h, hphase⟩)⟩

theorem flights_settle {result : Option Listing} (hflights : Flights history s)
    (hrequest : s.requests[request]? = some ⟨key, .loading⟩)
    (hsame : s'.inFlight = s.inFlight)
    (hrequests : s'.requests
      = s.requests.modify request fun r => { r with phase := .settled result })
    (hcovers : ∀ key, ¬ record.Covers key)
    (hstarts : ∀ request key, ¬ record.Starts request key) :
    Flights (record :: history) s' where
  started other otherKey hstarted := started_modify hflights hrequest hrequests
    ((started_cons.mp hstarted).resolve_left (hstarts _ _))
  tracked otherKey other hget := by
    rw [hsame] at hget
    obtain ⟨hcurrent, phase, hphase, hunfinished⟩ := hflights.tracked otherKey other hget
    refine ⟨hcurrent.cons (hcovers _), ?_⟩
    by_cases h : other = request
    · rw [h, hrequest] at hphase
      obtain ⟨rfl, -⟩ := Request.mk.inj (Option.some.inj hphase)
      exact ⟨_, (requests_modify hrequest hrequests).mpr (Or.inl ⟨h, rfl, rfl⟩), trivial⟩
    · exact ⟨phase, (requests_modify hrequest hrequests).mpr (Or.inr ⟨h, hphase⟩), hunfinished⟩
  complete other otherKey phase hphase hunfinished hcurrent := by
    have hearlier := (hcurrent.of_cons (hstarts _ _)).2
    rw [hsame]
    rcases (requests_modify hrequest hrequests).mp hphase with ⟨rfl, rfl, -⟩ | ⟨-, hold⟩
    · exact hflights.complete other otherKey .loading hrequest trivial hearlier
    · exact hflights.complete other otherKey phase hold hunfinished hearlier

theorem flights_finish {result : Option Listing} (hflights : Flights history s)
    (hrequest : s.requests[request]? = some ⟨key, .settled result⟩)
    (hinFlight : s'.inFlight = if s.inFlight.get? key = some request
      then s.inFlight.delete key else s.inFlight)
    (hrequests : s'.requests
      = s.requests.modify request fun r => { r with phase := .finished result })
    (hcovers : ∀ key, ¬ record.Covers key)
    (hstarts : ∀ request key, ¬ record.Starts request key) :
    Flights (record :: history) s' := by
  -- the other tracked requests stay, and this one is tracked no longer
  have hget : ∀ otherKey other, s'.inFlight.get? otherKey = some other
      ↔ other ≠ request ∧ s.inFlight.get? otherKey = some other := by
    intro otherKey other
    have hkey : s.inFlight.get? otherKey = some request → otherKey = key := by
      intro htracked
      obtain ⟨-, phase, hphase, -⟩ := hflights.tracked otherKey request htracked
      rw [hrequest] at hphase
      exact (Request.mk.inj (Option.some.inj hphase)).1.symm
    rw [hinFlight]
    by_cases htracked : s.inFlight.get? key = some request
    · rw [if_pos htracked, InsertionMap.get?_delete]
      by_cases h : otherKey = key
      · rw [if_pos h, h, htracked]
        simp [eq_comm]
      · rw [if_neg h]
        refine ⟨fun hold => ⟨fun heq => h (hkey (heq ▸ hold)), hold⟩, fun hold => hold.2⟩
    · rw [if_neg htracked]
      refine ⟨fun hold => ⟨fun heq => ?_, hold⟩, fun hold => hold.2⟩
      rw [heq] at hold
      rw [hkey hold] at hold
      exact htracked hold
  constructor
  · intro other otherKey hstarted
    exact started_modify hflights hrequest hrequests
      ((started_cons.mp hstarted).resolve_left (hstarts _ _))
  · intro otherKey other hold
    obtain ⟨hne, hold⟩ := (hget otherKey other).mp hold
    obtain ⟨hcurrent, phase, hphase, hunfinished⟩ := hflights.tracked otherKey other hold
    exact ⟨hcurrent.cons (hcovers _), phase,
      (requests_modify hrequest hrequests).mpr (Or.inr ⟨hne, hphase⟩), hunfinished⟩
  · intro other otherKey phase hphase hunfinished hcurrent
    rcases (requests_modify hrequest hrequests).mp hphase with ⟨-, -, rfl⟩ | ⟨hne, hold⟩
    · exact hunfinished.elim
    · exact (hget otherKey other).mpr ⟨hne, hflights.complete other otherKey phase hold
        hunfinished (hcurrent.of_cons (hstarts _ _)).2⟩

theorem flights_start (hflights : Flights history s) (hfree : s.inFlight.get? key = none)
    (hinFlight : s'.inFlight = s.inFlight.set key s.requests.length)
    (hrequests : s'.requests = s.requests ++ [⟨key, .loading⟩])
    (hcovers : ∀ key, ¬ record.Covers key)
    (hstarts : ∀ request other,
      record.Starts request other ↔ s.requests.length = request ∧ key = other) :
    Flights (record :: history) s' := by
  have hold : ∀ {other : Nat} {r : Request Listing}, s.requests[other]? = some r →
      s'.requests[other]? = some r := by
    intro other r hr
    rw [hrequests, List.getElem?_append_left (List.getElem?_eq_some_iff.mp hr).1, hr]
  have hnew : s'.requests[s.requests.length]? = some ⟨key, .loading⟩ := by
    rw [hrequests, List.getElem?_concat_length]
  constructor
  · intro other otherKey hstarted
    rcases started_cons.mp hstarted with h | h
    · obtain ⟨rfl, rfl⟩ := (hstarts other otherKey).mp h
      exact ⟨.loading, hnew⟩
    · obtain ⟨phase, hphase⟩ := hflights.started other otherKey h
      exact ⟨phase, hold hphase⟩
  · intro otherKey other hget
    rw [hinFlight, InsertionMap.get?_set] at hget
    by_cases h : otherKey = key
    · rw [if_pos h] at hget
      rw [← Option.some.inj hget, h]
      exact ⟨Or.inl ((hstarts _ _).mpr ⟨rfl, rfl⟩), .loading, hnew, trivial⟩
    · rw [if_neg h] at hget
      obtain ⟨hcurrent, phase, hphase, hunfinished⟩ := hflights.tracked otherKey other hget
      exact ⟨hcurrent.cons (hcovers _), phase, hold hphase, hunfinished⟩
  · intro other otherKey phase hphase hunfinished hcurrent
    rw [hinFlight, InsertionMap.get?_set]
    by_cases hlast : other = s.requests.length
    · rw [hlast, hnew] at hphase
      rw [if_pos (Request.mk.inj (Option.some.inj hphase)).1.symm, hlast]
    · have hearlier := (hcurrent.of_cons fun h => hlast ((hstarts _ _).mp h).1.symm).2
      obtain ⟨phase', hphase'⟩ := hflights.started other otherKey hearlier.started
      rw [hold hphase'] at hphase
      obtain ⟨-, rfl⟩ := Request.mk.inj (Option.some.inj hphase)
      have htracked := hflights.complete other otherKey phase' hphase' hunfinished hearlier
      have hne : otherKey ≠ key := by
        rintro rfl
        rw [hfree] at htracked
        cases htracked
      rw [if_neg hne, htracked]

theorem flights_drop {keep : Key → Bool} (hflights : Flights history s)
    (hinFlight : s'.inFlight = s.inFlight.filterKeys keep) (hrequests : s'.requests = s.requests)
    (hcovers : ∀ key, record.Covers key ↔ keep key = false)
    (hstarts : ∀ request key, ¬ record.Starts request key) :
    Flights (record :: history) s' where
  started other otherKey hstarted := by
    rw [hrequests]
    exact hflights.started other otherKey ((started_cons.mp hstarted).resolve_left (hstarts _ _))
  tracked otherKey other hget := by
    rw [hinFlight, InsertionMap.get?_filterKeys] at hget
    by_cases hkeep : keep otherKey = true
    · rw [if_pos hkeep] at hget
      obtain ⟨hcurrent, hphase⟩ := hflights.tracked otherKey other hget
      rw [hrequests]
      refine ⟨hcurrent.cons fun hcovered => ?_, hphase⟩
      rw [(hcovers otherKey).mp hcovered] at hkeep
      cases hkeep
    · rw [if_neg hkeep] at hget
      cases hget
  complete other otherKey phase hphase hunfinished hcurrent := by
    rw [hrequests] at hphase
    obtain ⟨hnot, hearlier⟩ := hcurrent.of_cons (hstarts _ _)
    rw [hcovers, Bool.not_eq_false] at hnot
    rw [hinFlight, InsertionMap.get?_filterKeys, if_pos hnot]
    exact hflights.complete other otherKey phase hphase hunfinished hearlier

/-- **One step keeps what holds of the requests.** -/
theorem flights_step (hflights : Flights history s) (h : FlightEffect record s s') :
    Flights (record :: history) s' := by
  cases h with
  | keep hinFlight hrequests hcovers hstarts =>
      -- nothing is dropped
      have hall : s'.inFlight = s.inFlight.filterKeys fun _ => true := by
        rw [hinFlight, InsertionMap.filterKeys_all]
      exact flights_drop hflights hall hrequests
        (fun key => iff_of_false (hcovers key) (by simp)) hstarts
  | start key hfree hinFlight hrequests hcovers hstarts =>
      exact flights_start hflights hfree hinFlight hrequests hcovers hstarts
  | drop keep hinFlight hrequests hcovers hstarts =>
      exact flights_drop hflights hinFlight hrequests hcovers hstarts
  | settle request key result hrequest hinFlight hrequests hcovers hstarts =>
      exact flights_settle hflights hrequest hinFlight hrequests hcovers hstarts
  | finish request key result hrequest hinFlight hrequests hcovers hstarts =>
      exact flights_finish hflights hrequest hinFlight hrequests hcovers hstarts

theorem flights_of_run (hrun : Run settings history s) : Flights history s := by
  induction hrun with
  | start =>
      constructor
      · intro request key hstarted
        exact absurd hstarted (by simp [Started])
      · intro key request hget
        cases hget
      · intro request key phase hphase
        cases hphase
  | step hrun hstep ih => exact flights_step ih (flightEffect_of_step hstep)

theorem Obsolete.started (h : Obsolete history request key) : Started history request key := by
  induction history with
  | nil => exact h.elim
  | cons record history ih =>
      rw [started_cons]
      rcases h with ⟨-, hstarted⟩ | hearlier
      · exact Or.inr hstarted
      · exact Or.inr (ih hearlier)

/-- A request that is started is a new one, and nothing is invalidated. -/
theorem starts_new (h : FlightEffect record s s') (hstarts : record.Starts request key) :
    s.requests.length = request ∧ ¬ record.Covers key := by
  cases h with
  | keep _ _ _ hnot => exact absurd hstarts (hnot _ _)
  | start other _ _ _ hcovers hnew => exact ⟨((hnew _ _).mp hstarts).1, hcovers _⟩
  | drop _ _ _ _ hnot => exact absurd hstarts (hnot _ _)
  | settle _ _ _ _ _ _ _ hnot => exact absurd hstarts (hnot _ _)
  | finish _ _ _ _ _ _ _ hnot => exact absurd hstarts (hnot _ _)

/-- **A current request is not obsolete**: a request is started once. -/
theorem Current.not_obsolete (hrun : Run settings history s) (h : Current history request key) :
    ¬ Obsolete history request key := by
  induction hrun with
  | start => exact h.elim
  | step hrun hstep ih =>
      have heffect := flightEffect_of_step hstep
      rintro (⟨hcovers, hstarted⟩ | hobsolete)
      · rcases h with hstarts | ⟨hnot, -⟩
        · exact (starts_new heffect hstarts).2 hcovers
        · exact hnot hcovers
      · rcases h with hstarts | ⟨-, hearlier⟩
        · obtain ⟨hlength, -⟩ := starts_new heffect hstarts
          obtain ⟨phase, hphase⟩ := (flights_of_run hrun).started _ _ hobsolete.started
          have hlt := (List.getElem?_eq_some_iff.mp hphase).1
          omega
        · exact ih hearlier hobsolete

/-! ## §8. Listings along a run. -/

/-- The listing at the key comes from a loader that no invalidation has made obsolete. -/
def FromCurrent (history : List (Record Listing)) (key : Key) (listing : Listing) : Prop :=
  ∃ request, Started history request key ∧ ¬ Obsolete history request key
    ∧ Gave history request listing

structure Listings (settings : Settings) (history : List (Record Listing)) (s : Session Listing) :
    Prop where
  bounded : s.listings.size ≤ settings.maximumEntries
  ordered : s.listings.keys.Pairwise fun older newer => MoreRecent history newer older
  sourced : ∀ key cached, s.listings.get? key = some cached →
    ∃ request, Current history request key ∧ Gave history request cached.listing

theorem MoreRecent.cons {newer older : Key} (h : MoreRecent history newer older)
    (hnot : ¬ record.Uses older) : MoreRecent (record :: history) newer older := by
  obtain ⟨later, hlater, ⟨found, hfound, huses⟩, hunused⟩ := h
  refine ⟨record :: later, List.cons_prefix_cons.mpr ⟨rfl, hlater⟩,
    ⟨found, List.mem_cons_of_mem _ hfound, huses⟩, ?_⟩
  intro other hother
  rcases List.mem_cons.mp hother with rfl | hother
  · exact hnot
  · exact hunused other hother

theorem moreRecent_of_uses {newer older : Key} (huses : record.Uses newer)
    (hnot : ¬ record.Uses older) : MoreRecent (record :: history) newer older := by
  refine ⟨[record], ⟨history, rfl⟩, ⟨record, List.mem_singleton_self _, huses⟩, ?_⟩
  intro other hother
  rw [List.mem_singleton.mp hother]
  exact hnot

/-- Keys that the step does not use keep their order. -/
theorem ordered_unused {keys keys' : List Key}
    (h : keys.Pairwise fun older newer => MoreRecent history newer older)
    (hsub : keys'.Sublist keys) (hunused : ∀ key ∈ keys', ¬ record.Uses key) :
    keys'.Pairwise fun older newer => MoreRecent (record :: history) newer older := by
  refine (h.sublist hsub).imp_of_mem ?_
  intro older newer holder _ hrecent
  exact hrecent.cons (hunused older holder)

/-- **A key that is used moves behind all others.** -/
theorem ordered_used {keys : List Key}
    (h : keys.Pairwise fun older newer => MoreRecent history newer older)
    (huses : ∀ other, record.Uses other ↔ key = other) :
    ((keys.filter fun other => other ≠ key) ++ [key]).Pairwise
      fun older newer => MoreRecent (record :: history) newer older := by
  have hunused : ∀ other ∈ keys.filter fun other => other ≠ key, ¬ record.Uses other := by
    intro other hother hused
    have hne : other ≠ key := by simpa using (List.mem_filter.mp hother).2
    exact hne ((huses other).mp hused).symm
  rw [List.pairwise_append]
  refine ⟨ordered_unused h List.filter_sublist hunused, List.pairwise_singleton _ _, ?_⟩
  intro older holder newer hnewer
  rw [List.mem_singleton.mp hnewer]
  exact moreRecent_of_uses ((huses key).mpr rfl) (hunused older holder)

theorem Gave.cons {listing : Listing} (h : Gave history request listing) :
    Gave (record :: history) request listing := by
  obtain ⟨found, hfound, hgave⟩ := h
  exact ⟨found, List.mem_cons_of_mem _ hfound, hgave⟩

theorem listings_touch (hlistings : Listings settings history s)
    (htouch : s'.listings = s.listings.touch key) (hcovers : ∀ key, ¬ record.Covers key)
    (huses : ∀ other, record.Uses other ↔ key = other) :
    Listings settings (record :: history) s' := by
  constructor
  · rw [htouch, InsertionMap.size_touch]
    exact hlistings.bounded
  · rw [htouch, InsertionMap.keys_touch]
    by_cases hmem : key ∈ s.listings.keys
    · rw [if_pos hmem]
      exact ordered_used hlistings.ordered huses
    · rw [if_neg hmem]
      refine ordered_unused hlistings.ordered (List.Sublist.refl _) ?_
      intro other hother hused
      exact hmem ((huses other).mp hused ▸ hother)
  · intro other cached hget
    rw [htouch, InsertionMap.get?_touch] at hget
    obtain ⟨request, hcurrent, hgave⟩ := hlistings.sourced other cached hget
    exact ⟨request, hcurrent.cons (hcovers _), hgave.cons⟩

theorem listings_drop {keep : Key → Bool} (hlistings : Listings settings history s)
    (hdrop : s'.listings = s.listings.filterKeys keep)
    (hcovers : ∀ key, record.Covers key ↔ keep key = false)
    (huses : ∀ key, ¬ record.Uses key) : Listings settings (record :: history) s' := by
  constructor
  · rw [hdrop]
    exact le_trans (List.length_filter_le _ _) hlistings.bounded
  · rw [hdrop, InsertionMap.keys_filterKeys]
    exact ordered_unused hlistings.ordered List.filter_sublist fun other _ => huses other
  · intro other cached hget
    rw [hdrop, InsertionMap.get?_filterKeys] at hget
    by_cases hkeep : keep other = true
    · rw [if_pos hkeep] at hget
      obtain ⟨request, hcurrent, hgave⟩ := hlistings.sourced other cached hget
      refine ⟨request, hcurrent.cons fun hcovered => ?_, hgave.cons⟩
      rw [(hcovers other).mp hcovered] at hkeep
      cases hkeep
    · rw [if_neg hkeep] at hget
      cases hget

theorem listings_store {listing : Listing} {now : Int} (hlistings : Listings settings history s)
    (hflights : Flights history s)
    (hstore : s'.listings = (s.listings.put key ⟨listing, now⟩).evict settings.maximumEntries)
    (htracked : s.inFlight.get? key = some request)
    (hrecord : record = ⟨.fulfilled request listing now, .stored key⟩) :
    Listings settings (record :: history) s' := by
  have huses : ∀ other, record.Uses other ↔ key = other := by
    rw [hrecord]
    exact fun _ => Iff.rfl
  have hcovers : ∀ other, ¬ record.Covers other := by
    rw [hrecord]
    exact fun _ => not_false
  constructor
  · rw [hstore, InsertionMap.size_evict]
    exact Nat.min_le_left _ _
  · rw [hstore]
    refine List.Pairwise.sublist (InsertionMap.keys_evict _).sublist ?_
    rw [InsertionMap.keys_put]
    exact ordered_used hlistings.ordered huses
  · intro other cached hget
    rw [hstore] at hget
    have hput := InsertionMap.get?_evict hget
    rw [InsertionMap.get?_put] at hput
    by_cases h : other = key
    · rw [if_pos h] at hput
      rw [h, ← Option.some.inj hput]
      refine ⟨request, (hflights.tracked key request htracked).1.cons (hcovers _), record,
        List.mem_cons_self, now, ?_⟩
      rw [hrecord]
    · rw [if_neg h] at hput
      obtain ⟨request, hcurrent, hgave⟩ := hlistings.sourced other cached hput
      exact ⟨request, hcurrent.cons (hcovers _), hgave.cons⟩

/-- **One step keeps what holds of the listings.** -/
theorem listings_step (hlistings : Listings settings history s) (hflights : Flights history s)
    (h : ListingEffect settings record s s') : Listings settings (record :: history) s' := by
  cases h with
  | keep hsame hcovers huses =>
      have hall : s'.listings = s.listings.filterKeys fun _ => true := by
        rw [hsame, InsertionMap.filterKeys_all]
      exact listings_drop hlistings hall (fun key => iff_of_false (hcovers key) (by simp)) huses
  | touch key htouch hcovers huses => exact listings_touch hlistings htouch hcovers huses
  | drop keep hdrop hcovers huses => exact listings_drop hlistings hdrop hcovers huses
  | store request key listing now hstore htracked hrecord =>
      exact listings_store hlistings hflights hstore htracked hrecord

theorem listings_of_run (hrun : Run settings history s) : Listings settings history s := by
  induction hrun with
  | start => exact ⟨Nat.zero_le _, List.Pairwise.nil, fun _ _ hget => nomatch hget⟩
  | step hrun hstep ih =>
      exact listings_step ih (flights_of_run hrun) (listingEffect_of_step hstep)

/-! ## §9. No stale listings. -/

/-- **A listing that goes is invalidated, or the least recently used one of a full cache.** -/
theorem eviction_is_lru (hlistings : Listings settings history s)
    (h : ListingEffect settings record s s') {gone : Key} (hgone : gone ∈ s.listings.keys)
    (hnot : gone ∉ s'.listings.keys) :
    record.Covers gone ∨ (s.listings.size = settings.maximumEntries
      ∧ ∀ kept ∈ s'.listings.keys, MoreRecent (record :: history) kept gone) := by
  cases h with
  | keep hsame => exact absurd (hsame ▸ hgone) hnot
  | touch key htouch =>
      refine absurd ?_ hnot
      obtain ⟨cached, hget⟩ := InsertionMap.mem_keys_iff.mp hgone
      rw [htouch]
      exact InsertionMap.mem_keys_iff.mpr ⟨cached, by rw [InsertionMap.get?_touch, hget]⟩
  | drop keep hdrop hcovers =>
      refine Or.inl ((hcovers gone).mpr ?_)
      rw [hdrop, InsertionMap.keys_filterKeys, List.mem_filter, not_and] at hnot
      exact Bool.not_eq_true _ ▸ hnot hgone
  | store request key listing now hstore htracked hrecord =>
      have huses : ∀ other, record.Uses other ↔ key = other := by
        rw [hrecord]
        exact fun _ => Iff.rfl
      have hordered := ordered_used hlistings.ordered huses
      rw [← @InsertionMap.keys_put _ _ _ s.listings key ⟨listing, now⟩] at hordered
      have hput : gone ∈ (s.listings.put key ⟨listing, now⟩).keys := by
        rw [InsertionMap.keys_put, List.mem_append, List.mem_singleton]
        by_cases hkey : gone = key
        · exact Or.inr hkey
        · exact Or.inl (List.mem_filter.mpr ⟨hgone, by simpa using hkey⟩)
      rw [hstore] at hnot ⊢
      obtain ⟨dropped, hsplit⟩ := @InsertionMap.keys_evict _ _
        (s.listings.put key ⟨listing, now⟩) settings.maximumEntries
      rw [← hsplit] at hordered hput
      have hdropped : gone ∈ dropped := (List.mem_append.mp hput).resolve_right hnot
      refine Or.inr ⟨?_, fun kept hkept => (List.pairwise_append.mp hordered).2.2 _ hdropped _ hkept⟩
      -- keys are dropped only where the new one was one too many
      have hlength := congrArg List.length hsplit
      have hpositive := List.length_pos_of_mem hdropped
      rw [List.length_append, InsertionMap.length_keys, InsertionMap.length_keys,
        InsertionMap.size_evict] at hlength
      have hsize := @InsertionMap.size_put_le _ _ _ s.listings key ⟨listing, now⟩
      have hbounded := hlistings.bounded
      omega

/-- The loader was started for the key, has not come to its end, and is not obsolete. -/
def InFlight (history : List (Record Listing)) (s : Session Listing) (key : Key) (request : Nat) :
    Prop :=
  (Started history request key ∧ ¬ Obsolete history request key)
    ∧ ∃ phase : Phase Listing, s.requests[request]? = some ⟨key, phase⟩ ∧ phase.Unfinished

/-- The place that a call looks up. -/
def Event.place? : Event Listing → Option Place
  | .peek place => some place
  | .fresh place _ => some place
  | .load place _ _ _ => some place
  | _ => none

/-- What the next call or callback may do. -/
structure SafeStep (settings : Settings) (history : List (Record Listing)) (s : Session Listing)
    (record : Record Listing) (s' : Session Listing) : Prop where
  evicts : ∀ gone ∈ s.listings.keys, gone ∉ s'.listings.keys →
    record.Covers gone ∨ (s.listings.size = settings.maximumEntries
      ∧ ∀ kept ∈ s'.listings.keys, MoreRecent (record :: history) kept gone)
  returns : ∀ place listing, record.event.place? = some place →
    (record.reply = .found (some listing) ∨ record.reply = .resolved listing) →
      FromCurrent history place.key listing
  shares : ∀ place request, record.event.place? = some place →
    record.reply = .pending request → InFlight history s place.key request
  ignores : ∀ request listing now key, record.event = .fulfilled request listing now →
    Obsolete history request key → s'.listings = s.listings
  fails : ∀ request, record.event = .rejected request ∨ record.event = .finished request →
    s'.listings = s.listings
  throws : record.reply = .thrown → ∀ key, s'.listings.get? key = s.listings.get? key

theorem fresh_found {key : Key} {now : Int} {listing : Listing}
    (h : (s.fresh settings key now).1 = some listing) :
    ∃ cached, s.listings.get? key = some cached ∧ cached.listing = listing := by
  unfold Session.fresh at h
  cases hget : s.listings.get? key with
  | none =>
      rw [hget] at h
      cases h
  | some cached =>
      rw [hget] at h
      dsimp only at h
      split at h
      next => exact ⟨cached, rfl, Option.some.inj h⟩
      next => cases h

/-- What a load returns is in the cache, or tracked. -/
theorem load_reply (key : Key) (force : Bool) (now : Int) (throws : Bool) :
    (∀ listing, (s.load settings key force now throws).1 = .resolved listing →
        ∃ cached, s.listings.get? key = some cached ∧ cached.listing = listing)
      ∧ (∀ request, (s.load settings key force now throws).1 = .pending request →
        s.inFlight.get? key = some request)
      ∧ ∀ found, (s.load settings key force now throws).1 ≠ .found found := by
  have hlooked : (∀ listing, (if force then ((none : Option Listing), s)
        else s.fresh settings key now).1 = some listing →
          ∃ cached, s.listings.get? key = some cached ∧ cached.listing = listing)
      ∧ (if force then ((none : Option Listing), s)
        else s.fresh settings key now).2.inFlight = s.inFlight := by
    cases force with
    | true => exact ⟨nofun, rfl⟩
    | false => exact ⟨fun _ h => fresh_found h, (fresh_flights key now).1⟩
  unfold Session.load
  dsimp only
  generalize (if force then ((none : Option Listing), s) else s.fresh settings key now) = looked
    at hlooked ⊢
  obtain ⟨hfound, hflights⟩ := hlooked
  cases hlisting : looked.1 with
  | some listing =>
      refine ⟨?_, nofun, nofun⟩
      intro other h
      exact hfound other (hlisting.trans (congrArg some (Reply.resolved.inj h)))
  | none =>
      rw [hflights]
      cases s.inFlight.get? key with
      | some request =>
          refine ⟨nofun, ?_, nofun⟩
          intro other h
          rw [Reply.pending.inj h]
      | none =>
          cases throws with
          | true => exact ⟨nofun, nofun, nofun⟩
          | false => exact ⟨nofun, nofun, nofun⟩

theorem fromCurrent_of_get (hrun : Run settings history s) {cached : CachedDirectory Listing}
    (hget : s.listings.get? key = some cached) : FromCurrent history key cached.listing := by
  obtain ⟨request, hcurrent, hgave⟩ := (listings_of_run hrun).sourced key cached hget
  exact ⟨request, hcurrent.started, hcurrent.not_obsolete hrun, hgave⟩

/-- **The tracked requests are those in flight.** -/
theorem tracked_iff (hrun : Run settings history s) :
    s.inFlight.get? key = some request ↔ InFlight history s key request := by
  have hflights := flights_of_run hrun
  constructor
  · intro hget
    obtain ⟨hcurrent, hphase⟩ := hflights.tracked key request hget
    exact ⟨⟨hcurrent.started, hcurrent.not_obsolete hrun⟩, hphase⟩
  · rintro ⟨⟨hstarted, hnot⟩, phase, hphase, hunfinished⟩
    exact hflights.complete request key phase hphase hunfinished
      (current_of_not_obsolete hstarted hnot)

/-- The loader of an obsolete request changes no listing. -/
theorem fulfilled_obsolete (hrun : Run settings history s) {listing : Listing} {now : Int}
    {reply : Reply Listing} (h : step settings (.fulfilled request listing now) s = some (reply, s'))
    (hobsolete : Obsolete history request key) : s'.listings = s.listings := by
  obtain ⟨found, hrequest, hstore⟩ := step_fulfilled h
  obtain ⟨phase, hphase⟩ := (flights_of_run hrun).started _ _ hobsolete.started
  rw [hrequest] at hphase
  obtain ⟨rfl, -⟩ := Request.mk.inj (Option.some.inj hphase)
  have huntracked : ¬ s.inFlight.get? found = some request := fun htracked =>
    ((tracked_iff hrun).mp htracked).1.2 hobsolete
  unfold Session.store at hstore
  rw [if_neg (show ¬ (s.setPhase request _).inFlight.get? found = _ from huntracked)] at hstore
  rw [show s' = _ from (congrArg Prod.snd hstore).symm]
  rfl

theorem safe_step (hrun : Run settings history s) {event : Event Listing} {reply : Reply Listing}
    (h : step settings event s = some (reply, s')) :
    SafeStep settings history s ⟨event, reply⟩ s' where
  evicts gone hgone hnot :=
    eviction_is_lru (listings_of_run hrun) (listingEffect_of_step h) hgone hnot
  returns place listing hplace hreply := by
    have hcached : ∃ cached, s.listings.get? place.key = some cached
        ∧ cached.listing = listing := by
      cases event with
      | peek other =>
          obtain rfl : other = place := Option.some.inj hplace
          rcases hreply with hreply | hreply
          · have hfound := (Prod.mk.inj (Option.some.inj h)).1.trans hreply
            exact Option.map_eq_some_iff.mp (Reply.found.inj hfound)
          · cases (Prod.mk.inj (Option.some.inj h)).1.trans hreply
      | fresh other now =>
          obtain rfl : other = place := Option.some.inj hplace
          rcases hreply with hreply | hreply
          · have hfound := (Prod.mk.inj (Option.some.inj h)).1.trans hreply
            exact fresh_found (Reply.found.inj hfound)
          · cases (Prod.mk.inj (Option.some.inj h)).1.trans hreply
      | load other force now throws =>
          obtain rfl : other = place := Option.some.inj hplace
          obtain ⟨hresolved, -, hnot⟩ := @load_reply _ settings s other.key force now throws
          have hfirst := congrArg Prod.fst (Option.some.inj h)
          rcases hreply with hreply | hreply
          · exact absurd (hfirst.trans hreply) (hnot _)
          · exact hresolved listing (hfirst.trans hreply)
      | _ => cases hplace
    obtain ⟨cached, hget, rfl⟩ := hcached
    exact fromCurrent_of_get hrun hget
  shares place request hplace hreply := by
    rw [← tracked_iff hrun]
    cases event with
    | peek other => cases (Prod.mk.inj (Option.some.inj h)).1.trans hreply
    | fresh other now => cases (Prod.mk.inj (Option.some.inj h)).1.trans hreply
    | load other force now throws =>
        obtain rfl : other = place := Option.some.inj hplace
        obtain ⟨-, hpending, -⟩ := @load_reply _ settings s other.key force now throws
        exact hpending request ((congrArg Prod.fst (Option.some.inj h)).trans hreply)
    | _ => cases hplace
  ignores request listing now key hevent hobsolete := by
    obtain rfl : event = _ := hevent
    exact fulfilled_obsolete hrun h hobsolete
  fails request hevent := by
    rcases hevent with hevent | hevent
    · obtain rfl : event = _ := hevent
      obtain ⟨_, -, rfl⟩ := step_rejected h
      rfl
    · obtain rfl : event = _ := hevent
      obtain ⟨_, _, -, hlistings, -⟩ := step_finished h
      exact hlistings
  throws hreply := by
    intro key
    cases event with
    | load place force now throws =>
        have hlistings := @load_listings _ settings s place.key force now throws
        rw [show s.load settings place.key force now throws = (reply, s') from Option.some.inj h]
          at hlistings
        rw [hlistings]
        cases force with
        | true => rfl
        | false => exact InsertionMap.get?_touch
    | fulfilled request listing now =>
        obtain ⟨found, -, hstore⟩ := step_fulfilled h
        have hfirst := congrArg Prod.fst hstore
        rw [show reply = .thrown from hreply] at hfirst
        unfold Session.store at hfirst
        split at hfirst
        next => cases hfirst
        next => cases hfirst
    | rejected request =>
        obtain ⟨_, -, rfl⟩ := step_rejected h
        rfl
    | finished request =>
        obtain ⟨_, _, -, hlistings, -⟩ := step_finished h
        rw [hlistings]
    | _ => cases (Prod.mk.inj (Option.some.inj h)).1.trans hreply

/-- **The cache never serves a listing that is older than an invalidation**, in any order of
calls and callbacks. -/
theorem directory_cache_never_stale (settings : Settings) (history : List (Record Listing))
    (s : Session Listing) (hrun : Run settings history s) :
    s.listings.size ≤ settings.maximumEntries
      ∧ (∀ key request, s.inFlight.get? key = some request ↔ InFlight history s key request)
      ∧ (∀ key cached, s.listings.get? key = some cached → FromCurrent history key cached.listing)
      ∧ ∀ event reply s', step settings event s = some (reply, s') →
        SafeStep settings history s ⟨event, reply⟩ s' := by
  refine ⟨(listings_of_run hrun).bounded, ?_, ?_, ?_⟩
  · intro key request
    exact tracked_iff hrun
  · intro key cached hget
    exact fromCurrent_of_get hrun hget
  · intro event reply s' hstep
    exact safe_step hrun hstep

def sampleSettings : Settings := ⟨1, 5000, by decide, by decide⟩

/-- A server is cleared while one of its directories is loading. -/
def clearedHistory : List (Record Text) :=
  [⟨.clearServer "web".toList, .done⟩,
    ⟨.load (.remote "web".toList "/srv".toList) false 0 false, .started 0⟩]

def clearedSession : Session Text :=
  ⟨.empty, .empty, .empty, [⟨remoteKey "web".toList "/srv".toList, .loading⟩]⟩

theorem cleared_run : Run sampleSettings clearedHistory clearedSession :=
  .step (.step .start rfl) rfl

theorem slow_listing_not_stored :
    ∃ reply s', step sampleSettings (.fulfilled 0 "/srv".toList 7) clearedSession
      = some (reply, s') ∧ s'.listings = clearedSession.listings := by
  refine ⟨_, _, rfl, ?_⟩
  obtain ⟨-, -, -, hsafe⟩ :=
    directory_cache_never_stale sampleSettings clearedHistory clearedSession cleared_run
  refine (hsafe (.fulfilled 0 "/srv".toList 7) _ _ rfl).ignores 0 "/srv".toList 7
    (remoteKey "web".toList "/srv".toList) rfl (Or.inl ⟨?_, ?_⟩)
  · exact List.prefix_append _ _
  · exact ⟨_, List.mem_singleton_self _, rfl, rfl⟩

end QingzhouSSH.Features.DirectorySessionCache
