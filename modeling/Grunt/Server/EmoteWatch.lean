import Grunt.Foundation.Ordered
import Grunt.Foundation.Run
import Grunt.Server.EmoteScan

/-! # Watching the emote directory

`init` and the goroutine of `EmoteWatcher.run` beside a directory that others
change at any time, and how far `emoteMap` follows the directory.
-/

namespace Grunt.Server

open Foundation

/-- A directory as `os.ReadDir` lists it. -/
abbrev Listing := Ordered DirEntry.name

namespace EmoteWatcher

/-! ## The watcher -/

/-- How far `StartEmoteWatcher` and `Close` are. -/
inductive Watch
  | before
  | added
  | closed
deriving DecidableEq, Repr

/-- Where `init`, and then `run`, stands. -/
inductive Phase
  /-- In `os.ReadDir`, with the directory as it has been since the call. -/
  | reading (seen : List Listing)
  /-- In `scanImageEmotes` with the listing, before the lock is taken. -/
  | storing (listing : Listing)
  /-- `init` is about to call `StartEmoteWatcher`. -/
  | starting
  /-- `run` waits in its `select`. -/
  | selecting
  /-- There is no watcher, or `run` has returned. -/
  | returned

structure State where
  directory : Listing
  watch : Watch
  /-- What the channel of events will still hand out. -/
  pending : List WatchEvent
  phase : Phase
  emotes : EmoteMap

/-- Before the first statement of `init`. -/
def State.initial (directory : Listing) : State where
  directory := directory
  watch := .before
  pending := []
  phase := .reading [directory]
  emotes := EmoteMap.builtin

inductive Event
  /-- Somebody changes the directory, and fsnotify queues events for it. -/
  | edit (directory : Listing) (queued : List WatchEvent)
  /-- `os.ReadDir` returns a listing, or an error. -/
  | readDir (listing : Option Listing)
  /-- `scanImageEmotes` changes the map under its lock. -/
  | store
  /-- `StartEmoteWatcher`, and whether it has come to start the goroutine. -/
  | start (watches : Bool)
  | receive
  /-- An error of the watcher is received, and only logged. -/
  | receiveError
  | close
  /-- `stopCh`, or one of the closed channels, is received from. -/
  | exit

/-- Where `init` or `run` goes on after a scan. -/
def State.scanned (state : State) : Phase :=
  if state.watch = .before then .starting else .selecting

/-- Where `scanImageEmotes` goes on with what `os.ReadDir` returned. -/
def State.listed (state : State) : Option Listing → Phase
  | some listing => .storing listing
  | none => state.scanned

def next (state : State) : Event → Option State
  | .edit directory queued => some { state with
      directory
      pending := if state.watch = .added then state.pending ++ queued else state.pending
      phase :=
        match state.phase with
        | .reading seen => .reading (seen ++ [directory])
        | phase => phase }
  | .readDir listing =>
      match state.phase with
      | .reading _ => some { state with phase := state.listed listing }
      | _ => none
  | .store =>
      match state.phase with
      | .storing listing => some { state with
          emotes := EmoteMap.scanImageEmotes state.emotes (some listing.values)
          phase := state.scanned }
      | _ => none
  | .start watches =>
      match state.phase with
      | .starting => some (if watches then { state with watch := .added, phase := .selecting }
          else { state with phase := .returned })
      | _ => none
  | .receive =>
      match state.phase, state.pending with
      | .selecting, event :: pending => some { state with
          pending
          phase := if event.reloads then .reading [state.directory] else .selecting }
      | _, _ => none
  | .receiveError =>
      match state.phase with
      | .selecting => some state
      | _ => none
  | .close => if state.watch = .added then some { state with watch := .closed } else none
  | .exit =>
      match state.phase with
      | .selecting =>
          if state.watch = .closed then some { state with phase := .returned } else none
      | _ => none

section Steps

variable {state after : State}

theorem readDir_of_next {read : Option Listing} (taken : next state (.readDir read) = some after) :
    ∃ seen, state.phase = .reading seen ∧ after = { state with phase := state.listed read } := by
  dsimp only [next] at taken
  split at taken
  case h_1 seen phase => exact ⟨seen, phase, (Option.some.inj taken).symm⟩
  case h_2 => cases taken

theorem store_of_next (taken : next state .store = some after) :
    ∃ listing, state.phase = .storing listing ∧ after = { state with
      emotes := EmoteMap.scanImageEmotes state.emotes (some listing.values)
      phase := state.scanned } := by
  dsimp only [next] at taken
  split at taken
  case h_1 listing phase => exact ⟨listing, phase, (Option.some.inj taken).symm⟩
  case h_2 => cases taken

theorem receive_of_next (taken : next state .receive = some after) :
    ∃ event pending, state.phase = .selecting ∧ state.pending = event :: pending ∧
      after = { state with
        pending
        phase := if event.reloads then .reading [state.directory] else .selecting } := by
  dsimp only [next] at taken
  split at taken
  case h_1 event pending phase queued =>
    exact ⟨event, pending, phase, queued, (Option.some.inj taken).symm⟩
  case h_2 => cases taken

end Steps

/-! ## The directory -/

def Notifies (before after : Listing) (queued : List WatchEvent) : Prop :=
  ∀ file, before.find file ≠ after.find file →
    ∃ event ∈ queued, Path.base event.name = file ∧ event.changes = true

/-- What `os.ReadDir` may return: each file as it was at some time during the call. -/
def Lists (seen : List Listing) (listing : Listing) : Prop :=
  ∀ file, ∃ directory ∈ seen, listing.find file = directory.find file

/-- The directory changes only while it is watched, all its changes are
notified, and it can be read. -/
def Undisturbed (state : State) : Event → Prop
  | .edit directory queued =>
      state.watch = .added ∧ Notifies state.directory directory queued
  | .readDir none => False
  | .readDir (some listing) => ∀ seen, state.phase = .reading seen → Lists seen listing
  | _ => True

/-- The steps that the watcher itself takes. -/
def Event.own : Event → Bool
  | .readDir _ | .store | .receive => true
  | _ => false

/-- The watcher works, and nobody changes the directory meanwhile. -/
def Working (state : State) (event : Event) : Prop :=
  Undisturbed state event ∧ event.own = true

/-! ## What is missed -/

/-- Each emote file is in the listing as it is in the directory, or an event for
it is still to come. -/
def Noticed (pending : List WatchEvent) (directory listing : Listing) : Prop :=
  ∀ file, (imageEmote ⟨file, false⟩).isSome = true →
    listing.find file = directory.find file ∨
      ∃ event ∈ pending, Path.base event.name = file ∧ event.changes = true

section Noticing

variable {pending : List WatchEvent} {directory listing : Listing}

theorem noticed_refl (pending : List WatchEvent) (directory : Listing) :
    Noticed pending directory directory :=
  fun _ _ => .inl rfl

theorem Noticed.edit {after : Listing} {queued : List WatchEvent}
    (noticed : Noticed pending directory listing) (notifies : Notifies directory after queued) :
    Noticed (pending ++ queued) after listing := by
  intro file image
  rcases noticed file image with same | ⟨event, member, facts⟩
  · by_cases changed : directory.find file = after.find file
    · exact .inl (same.trans changed)
    · rcases notifies file changed with ⟨event, member, facts⟩
      exact .inr ⟨event, List.mem_append_right pending member, facts⟩
  · exact .inr ⟨event, List.mem_append_left queued member, facts⟩

theorem Noticed.pass {event : WatchEvent} (noticed : Noticed (event :: pending) directory listing)
    (passed : event.reloads = false) : Noticed pending directory listing := by
  intro file image
  rcases noticed file image with same | ⟨other, member, named, changes⟩
  · exact .inl same
  · rcases List.mem_cons.mp member with rfl | member
    · rw [WatchEvent.reloads_eq, named, image, changes] at passed
      cases passed
    · exact .inr ⟨other, member, named, changes⟩

theorem Noticed.lists {seen : List Listing}
    (noticed : ∀ directory' ∈ seen, Noticed pending directory directory')
    (lists : Lists seen listing) : Noticed pending directory listing := by
  intro file image
  rcases lists file with ⟨earlier, member, same⟩
  rw [same]
  exact noticed earlier member file image

theorem Noticed.images (noticed : Noticed pending directory listing)
    (quiet : ∀ event ∈ pending, event.reloads = false) :
    listing.values.filter (fun entry => (imageEmote entry).isSome) =
      directory.values.filter (fun entry => (imageEmote entry).isSome) := by
  apply Ordered.filter_eq_of_find
  intro entry stands
  have image : (imageEmote ⟨entry.name, false⟩).isSome = true := by
    rcases Option.isSome_iff_exists.mp stands with ⟨image, stands⟩
    rw [← (denotes_of_imageEmote stands).1, stands]
    rfl
  rcases noticed entry.name image with same | ⟨event, member, named, changes⟩
  · exact same
  · have passed := quiet event member
    rw [WatchEvent.reloads_eq, named, image, changes] at passed
    cases passed

end Noticing

end EmoteWatcher

namespace EmoteMap

/-! ## The map beside a directory -/

/-- The images in the map are those of the directory, and only the name of a
text emote may show what the directory does not have. -/
structure Reflects (map : EmoteMap) (entries : List DirEntry) : Prop where
  images : ∀ name, textEmoteNames name = false → map name = loaded entries name
  texts : ∀ name tag, loaded entries name = some tag → map name = some tag

theorem reflects_scan (map : EmoteMap) (entries : List DirEntry) :
    Reflects (scanImageEmotes map (some entries)) entries where
  images := by
    intro name image
    cases found : loaded entries name <;> simp [scanImageEmotes, found, image]
  texts := by
    intro name tag found
    simp only [scanImageEmotes, found]

theorem loaded_filter (entries : List DirEntry) :
    loaded (entries.filter fun entry => (imageEmote entry).isSome) = loaded entries := by
  induction entries using List.reverseRecOn with
  | nil => rfl
  | append_singleton entries entry induction =>
      have folded : ∀ other : List DirEntry,
          loaded (entries ++ other) = other.foldl load (loaded entries) := fun other => by
        unfold loaded
        exact List.foldl_append
      have kept : ∀ other : List DirEntry,
          loaded ((entries.filter fun entry => (imageEmote entry).isSome) ++ other) =
            other.foldl load (loaded entries) := fun other => by
        rw [← induction]
        unfold loaded
        exact List.foldl_append
      rw [List.filter_append, kept, folded]
      cases stands : imageEmote entry with
      | none =>
          rw [List.filter_singleton, stands]
          exact (load_of_none _ stands).symm
      | some image =>
          rw [List.filter_singleton, stands]
          rfl

theorem Reflects.of_images {map : EmoteMap} {one two : List DirEntry}
    (reflects : Reflects map one)
    (same : one.filter (fun entry => (imageEmote entry).isSome) =
      two.filter (fun entry => (imageEmote entry).isSome)) : Reflects map two := by
  have loads : loaded one = loaded two := by
    rw [← loaded_filter one, same, loaded_filter two]
  exact ⟨loads ▸ reflects.images, loads ▸ reflects.texts⟩

end EmoteMap

namespace EmoteWatcher

/-! ## Keeping up -/

/-- The map shows a listing that lacks nothing but what is still to come. -/
def Kept (state : State) : Prop :=
  ∃ listing : Listing, state.emotes.Reflects listing.values ∧
    Noticed state.pending state.directory listing

def Watchful (state : State) : Prop :=
  match state.phase with
  | .reading seen =>
      seen ≠ [] ∧ ∀ listing ∈ seen, Noticed state.pending state.directory listing
  | .storing listing => Noticed state.pending state.directory listing
  | .starting => state.watch ≠ .added ∧ Kept state
  | .selecting => Kept state
  | .returned => state.watch ≠ .added

theorem watchful_initial (directory : Listing) : Watchful (.initial directory) := by
  refine ⟨List.cons_ne_nil _ _, fun listing member => ?_⟩
  rw [List.mem_singleton.mp member]
  exact noticed_refl _ _

theorem watchful_of_edit {state : State} {directory : Listing} {queued : List WatchEvent}
    {after : State} (watchful : Watchful state) (watched : state.watch = .added)
    (notifies : Notifies state.directory directory queued)
    (taken : next state (.edit directory queued) = some after) : Watchful after := by
  cases taken
  have edited : ∀ {listing}, Noticed state.pending state.directory listing →
      Noticed (state.pending ++ queued) directory listing := fun noticed =>
    noticed.edit notifies
  unfold Watchful at watchful ⊢
  simp only [watched, if_true]
  cases phase : state.phase with
  | reading seen =>
      rw [phase] at watchful
      refine ⟨List.append_ne_nil_of_left_ne_nil watchful.1 _, fun listing member => ?_⟩
      rcases List.mem_append.mp member with member | member
      · exact edited (watchful.2 listing member)
      · rw [List.mem_singleton.mp member]
        exact noticed_refl _ _
  | storing listing =>
      rw [phase] at watchful
      exact edited watchful
  | starting =>
      rw [phase] at watchful
      exact absurd watched watchful.1
  | selecting =>
      rw [phase] at watchful
      rcases watchful with ⟨listing, reflects, noticed⟩
      exact ⟨listing, reflects, edited noticed⟩
  | returned =>
      rw [phase] at watchful
      exact absurd watched watchful

theorem watchful_scanned {state after : State} {listing : Listing}
    (reflects : after.emotes.Reflects listing.values)
    (noticed : Noticed after.pending after.directory listing)
    (watch : after.watch = state.watch) (phase : after.phase = state.scanned) :
    Watchful after := by
  unfold Watchful
  rw [phase, State.scanned]
  by_cases early : state.watch = .before
  · rw [if_pos early]
    refine ⟨?_, listing, reflects, noticed⟩
    rw [watch, early]
    decide
  · rw [if_neg early]
    exact ⟨listing, reflects, noticed⟩

theorem watchful_of_next {state after : State} {event : Event} (watchful : Watchful state)
    (undisturbed : Undisturbed state event) (taken : next state event = some after) :
    Watchful after := by
  cases event with
  | edit directory queued => exact watchful_of_edit watchful undisturbed.1 undisturbed.2 taken
  | readDir read =>
      rcases readDir_of_next taken with ⟨seen, phase, rfl⟩
      unfold Watchful at watchful
      rw [phase] at watchful
      cases read with
      | none => exact undisturbed.elim
      | some listing => exact .lists watchful.2 (undisturbed seen phase)
  | store =>
      rcases store_of_next taken with ⟨listing, phase, rfl⟩
      unfold Watchful at watchful
      rw [phase] at watchful
      exact watchful_scanned (EmoteMap.reflects_scan _ _) watchful rfl rfl
  | start watches =>
      dsimp only [next] at taken
      split at taken
      case h_2 => cases taken
      case h_1 phase =>
        unfold Watchful at watchful
        rw [phase] at watchful
        cases watches with
        | false =>
            cases taken
            exact watchful.1
        | true =>
            cases taken
            exact watchful.2
  | receive =>
      rcases receive_of_next taken with ⟨event, pending, phase, queued, rfl⟩
      unfold Watchful at watchful ⊢
      rw [phase] at watchful
      rcases watchful with ⟨listing, reflects, noticed⟩
      rw [queued] at noticed
      cases reloads : event.reloads with
      | true =>
          refine ⟨List.cons_ne_nil _ _, fun listing member => ?_⟩
          rw [List.mem_singleton.mp member]
          exact noticed_refl _ _
      | false => exact ⟨listing, reflects, noticed.pass reloads⟩
  | receiveError =>
      dsimp only [next] at taken
      split at taken
      case h_2 => cases taken
      case h_1 =>
        cases taken
        exact watchful
  | close =>
      dsimp only [next] at taken
      split at taken
      case isFalse => cases taken
      case isTrue watched =>
        cases taken
        unfold Watchful at watchful ⊢
        cases phase : state.phase with
        | starting =>
            rw [phase] at watchful
            exact absurd watched watchful.1
        | returned =>
            rw [phase] at watchful
            exact absurd watched watchful
        | reading seen => rwa [phase] at watchful
        | storing listing => rwa [phase] at watchful
        | selecting => rwa [phase] at watchful
  | exit =>
      dsimp only [next] at taken
      split at taken
      case h_2 => cases taken
      case h_1 =>
        split at taken
        case isFalse => cases taken
        case isTrue closed =>
          cases taken
          unfold Watchful
          dsimp only
          rw [closed]
          decide

theorem watchful_of_run {directory : Listing} {events : List Event} {state : State}
    (run : Run next Undisturbed (.initial directory) events state) : Watchful state :=
  run.invariant Watchful (fun _ _ _ watchful undisturbed taken =>
    watchful_of_next watchful undisturbed taken) (watchful_initial directory)

theorem Kept.reflects {state : State} (kept : Kept state)
    (quiet : ∀ event ∈ state.pending, event.reloads = false) :
    state.emotes.Reflects state.directory.values := by
  rcases kept with ⟨listing, reflects, noticed⟩
  exact reflects.of_images (noticed.images quiet)

/-! ## What was loaded -/

def stored (state : State) : Event → List (List DirEntry)
  | .store =>
      match state.phase with
      | .storing listing => [listing.values]
      | _ => []
  | _ => []

/-- The listings that have been put into the map. -/
def loadedListings (directory : Listing) (events : List Event) : List (List DirEntry) :=
  trace next stored (.initial directory) events

theorem emotes_of_next {state after : State} {event : Event}
    (taken : next state event = some after) :
    after.emotes =
      ((stored state event).map some).foldl EmoteMap.scanImageEmotes state.emotes := by
  cases event with
  | edit directory queued =>
      cases taken
      rfl
  | readDir read =>
      rcases readDir_of_next taken with ⟨seen, phase, rfl⟩
      rfl
  | store =>
      rcases store_of_next taken with ⟨listing, phase, rfl⟩
      rw [stored, phase]
      rfl
  | start watches =>
      dsimp only [next] at taken
      split at taken
      case h_2 => cases taken
      case h_1 =>
        cases taken
        cases watches <;> rfl
  | receive =>
      rcases receive_of_next taken with ⟨event, pending, phase, queued, rfl⟩
      rfl
  | receiveError =>
      dsimp only [next] at taken
      split at taken <;> cases taken
      rfl
  | close =>
      dsimp only [next] at taken
      split at taken <;> cases taken
      rfl
  | exit =>
      dsimp only [next] at taken
      split at taken
      case h_2 => cases taken
      case h_1 =>
        split at taken <;> cases taken
        rfl

theorem emotes_of_run {allowed : State → Event → Prop} {directory : Listing}
    {events : List Event} {state : State}
    (run : Run next allowed (.initial directory) events state) :
    state.emotes = EmoteMap.scanned ((loadedListings directory events).map some) := by
  apply run.traced stored fun state _ seen => state.emotes = EmoteMap.scanned (seen.map some)
  · intro state _ seen event after holds _ taken
    rw [emotes_of_next taken, holds, EmoteMap.scanned, EmoteMap.scanned, List.map_append,
      List.foldl_append]
  · rfl

end EmoteWatcher

namespace EmoteMap

/-- A map that scans have made and that shows a directory is the one for that
directory, unless an image took the name of a text emote. -/
theorem Reflects.eq_current {listings : List (List DirEntry)} {entries : List DirEntry}
    (reflects : Reflects (scanned (listings.map some)) entries)
    (spares : ∀ earlier ∈ listings, SparesText earlier) :
    scanned (listings.map some) = current entries := by
  funext name
  unfold current
  cases text : textEmoteNames name with
  | false => exact reflects.images name text
  | true =>
      rw [if_pos rfl, scanned_eq, builtin_eq, ofTable, ofTable]
      rcases scanned_text listings text with ⟨-, kept⟩ | ⟨⟨earlier, member, loads⟩, -⟩
      · rw [kept]
      · exact absurd (loaded_eq_none_of_spares (spares earlier member) text) loads

end EmoteMap

namespace EmoteWatcher

/-- Whatever is changed in the directory while it is watched, at whatever time,
also during a scan: when the watcher waits and no event is left for which it
would reload, the images in the map are those of the directory as it is now. -/
theorem emotes_current_of_run {directory : Listing} {events : List Event} {state : State}
    (run : Run next Undisturbed (.initial directory) events state)
    (waiting : state.phase = .selecting)
    (quiet : ∀ event ∈ state.pending, event.reloads = false) :
    state.emotes.Reflects state.directory.values ∧
      ((∀ listing ∈ loadedListings directory events, EmoteMap.SparesText listing) →
        state.emotes = EmoteMap.current state.directory.values) := by
  have watchful := watchful_of_run run
  unfold Watchful at watchful
  rw [waiting] at watchful
  have reflects := Kept.reflects watchful quiet
  refine ⟨reflects, fun spares => ?_⟩
  rw [emotes_of_run run] at reflects ⊢
  exact reflects.eq_current spares

/-! A file is put into an empty directory. -/

def emptyListing : Listing := ⟨[], .nil⟩

/-- The directory with `wave.png`. -/
def waveListing : Listing := ⟨[⟨utf8 "wave.png", false⟩], List.pairwise_singleton _ _⟩

def waveCreated : WatchEvent where
  name := utf8 "/srv/emotes/wave.png"
  create := true
  write := false
  remove := false
  rename := false
  chmod := false

theorem wave_notified : Notifies emptyListing waveListing [waveCreated] := by
  intro file differs
  refine ⟨waveCreated, List.mem_singleton_self _, ?_, rfl⟩
  have base : Path.base waveCreated.name = utf8 "wave.png" := by decide
  rw [base]
  by_contra other
  apply differs
  exact (List.find?_cons_of_neg (by simpa using other)).symm

theorem lists_self (listing : Listing) : Lists [listing] listing :=
  fun _ => ⟨listing, List.mem_singleton_self _, rfl⟩

def waveComes : State where
  directory := waveListing
  watch := .added
  pending := [waveCreated]
  phase := .selecting
  emotes := EmoteMap.scanned [some []]

def comesEvents : List Event :=
  [.readDir (some emptyListing), .store, .start true, .edit waveListing [waveCreated]]

theorem comes_run : Run next Undisturbed (.initial emptyListing) comesEvents waveComes := by
  refine .cons ?_ rfl (.cons trivial rfl (.cons trivial rfl (.single ⟨rfl, wave_notified⟩ rfl)))
  intro seen phase
  cases phase
  exact lists_self emptyListing

def waveShown : State where
  directory := waveListing
  watch := .added
  pending := []
  phase := .selecting
  emotes := EmoteMap.scanned [some [], some waveListing.values]

def shownEvents : List Event := [.receive, .readDir (some waveListing), .store]

theorem shown_run : Run next Working waveComes shownEvents waveShown := by
  refine .cons ⟨trivial, rfl⟩ rfl (.cons ⟨?_, rfl⟩ rfl (.single ⟨trivial, rfl⟩ rfl))
  intro seen phase
  cases phase
  exact lists_self waveListing

/-- The new file is shown. -/
theorem wave_current :
    waveShown.emotes.Reflects waveListing.values ∧
      waveShown.emotes = EmoteMap.current waveListing.values := by
  have run := comes_run.append (shown_run.weaken fun _ _ working => working.1)
  have shown := emotes_current_of_run run rfl fun event member => absurd member List.not_mem_nil
  refine ⟨shown.1, shown.2 fun listing member entry inside image stands => ?_⟩
  have loaded : loadedListings emptyListing (comesEvents ++ shownEvents) =
      [[], waveListing.values] := rfl
  rw [loaded] at member
  rcases List.mem_pair.mp member with rfl | rfl
  · cases inside
  · rw [List.mem_singleton.mp inside] at stands
    have named : (imageEmote ⟨utf8 "wave.png", false⟩).map (·.1.text) = some (utf8 "wave") := by
      decide
    rw [stands] at named
    have name : image.1.text = utf8 "wave" := Option.some.inj named
    rw [name]
    decide

/-! ## Catching up -/

/-- How many steps the watcher takes at most before it waits for events. -/
def State.work (state : State) : Nat :=
  3 * state.pending.length +
    match state.phase with
    | .reading _ => 2
    | .storing _ => 1
    | _ => 0

theorem work_of_scanned (state : State) :
    State.work { state with phase := state.scanned } = 3 * state.pending.length := by
  unfold State.work State.scanned
  by_cases early : state.watch = .before <;> simp [early]

theorem work_of_next {state after : State} {event : Event} (own : event.own = true)
    (taken : next state event = some after) :
    after.work < state.work ∧ after.directory = state.directory ∧ after.watch = state.watch := by
  cases event with
  | edit | start | receiveError | close | exit => cases own
  | readDir read =>
      rcases readDir_of_next taken with ⟨seen, phase, rfl⟩
      refine ⟨?_, rfl, rfl⟩
      have before : state.work = 3 * state.pending.length + 2 := by
        rw [State.work, phase]
      rw [before]
      cases read with
      | none => exact (work_of_scanned state).trans_lt (by omega)
      | some listing => exact Nat.lt_succ_self _
  | store =>
      rcases store_of_next taken with ⟨listing, phase, rfl⟩
      refine ⟨?_, rfl, rfl⟩
      have before : state.work = 3 * state.pending.length + 1 := by
        rw [State.work, phase]
      rw [before]
      exact (work_of_scanned state).trans_lt (by omega)
  | receive =>
      rcases receive_of_next taken with ⟨event, pending, phase, queued, rfl⟩
      refine ⟨?_, rfl, rfl⟩
      have before : state.work = 3 * pending.length + 3 := by
        rw [State.work, phase, queued, List.length_cons]
        rfl
      rw [before]
      unfold State.work
      cases event.reloads
      · exact Nat.lt_add_of_pos_right (by decide)
      · exact Nat.lt_succ_self _

theorem work_of_run {state final : State} {events : List Event}
    (run : Run next Working state events final) :
    events.length + final.work ≤ state.work ∧ final.directory = state.directory ∧
      final.watch = state.watch := by
  induction run with
  | nil => exact ⟨by simp, rfl, rfl⟩
  | cons working taken _ induction =>
      rcases work_of_next working.2 taken with ⟨less, directory, watch⟩
      rcases induction with ⟨bound, laterDirectory, laterWatch⟩
      refine ⟨?_, laterDirectory.trans directory, laterWatch.trans watch⟩
      rw [List.length_cons]
      omega

/-- While the directory is watched, the watcher either has a step to take or
has nothing left to receive. -/
theorem goesOn_or_waits {state : State} (watchful : Watchful state)
    (watched : state.watch = .added) :
    (∃ event after, Working state event ∧ next state event = some after) ∨
      state.phase = .selecting ∧ state.pending = [] := by
  unfold Watchful at watchful
  cases phase : state.phase with
  | reading seen =>
      rw [phase] at watchful
      rcases List.exists_mem_of_ne_nil seen watchful.1 with ⟨listing, member⟩
      refine .inl ⟨.readDir (some listing), { state with phase := .storing listing },
        ⟨?_, rfl⟩, ?_⟩
      · intro other same
        rw [phase] at same
        cases same
        exact fun _ => ⟨listing, member, rfl⟩
      · dsimp only [next]
        rw [phase]
        rfl
  | storing listing =>
      refine .inl ⟨.store, { state with
        emotes := EmoteMap.scanImageEmotes state.emotes (some listing.values)
        phase := state.scanned }, ⟨trivial, rfl⟩, ?_⟩
      dsimp only [next]
      rw [phase]
  | starting =>
      rw [phase] at watchful
      exact absurd watched watchful.1
  | selecting =>
      cases queued : state.pending with
      | nil => exact .inr ⟨rfl, rfl⟩
      | cons event pending =>
          refine .inl ⟨.receive, { state with
            pending
            phase := if event.reloads then .reading [state.directory] else .selecting },
            ⟨trivial, rfl⟩, ?_⟩
          dsimp only [next]
          rw [phase, queued]
  | returned =>
      rw [phase] at watchful
      exact absurd watched watchful

/-- Once nobody changes the directory any more, the watcher comes to wait after a
bounded number of steps, however far behind it was, and then the map shows the
directory. -/
theorem emotes_settle_of_run {directory : Listing} {before events : List Event}
    {state final : State} (run : Run next Undisturbed (.initial directory) before state)
    (watched : state.watch = .added) (alone : Run next Working state events final) :
    events.length ≤ state.work ∧ final.directory = state.directory ∧
      ((∃ event after, Working final event ∧ next final event = some after) ∨
        final.emotes.Reflects state.directory.values) := by
  rcases work_of_run alone with ⟨bound, unchanged, watch⟩
  refine ⟨by omega, unchanged, ?_⟩
  have watchful := watchful_of_run (run.append (alone.weaken fun _ _ working => working.1))
  rcases goesOn_or_waits watchful (watch.trans watched) with goesOn | ⟨waiting, empty⟩
  · exact .inl goesOn
  · right
    unfold Watchful at watchful
    rw [waiting] at watchful
    rw [← unchanged]
    apply Kept.reflects watchful
    intro event member
    rw [empty] at member
    cases member

/-- The watcher needs three steps for the new file. -/
theorem wave_settled :
    shownEvents.length ≤ waveComes.work ∧ waveShown.emotes.Reflects waveListing.values := by
  have settled := emotes_settle_of_run comes_run rfl shown_run
  refine ⟨settled.1, settled.2.2.resolve_left ?_⟩
  rintro ⟨event, after, working, taken⟩
  cases event with
  | readDir | store | receive => cases taken
  | edit | start | receiveError | close | exit => cases working.2

end EmoteWatcher

end Grunt.Server
