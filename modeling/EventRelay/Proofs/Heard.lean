import EventRelay.Proofs.Elsewhere
import EventRelay.Proofs.Loyal

/-!
# Who hears what is received

As long as sessions leave before they end, each connection is a subscriber of the stream that its
session holds and of no other, once, and it stays so until it is closed. What any session sends is
therefore heard by everybody whose stream plays live, once, and by nobody else. A connection that
falls behind is closed: it is not a subscriber any more, and hears nothing more. None of this
depends on how the other connections fare.
-/

namespace EventRelay

namespace Connection

/-- The writer is there and has left room in the queue. -/
def HasRoom (c : Connection) : Prop := c.draining = true ∧ c.queue.length < c.capacity

instance : DecidablePred HasRoom := fun _ => inferInstanceAs (Decidable (_ ∧ _))

variable {c : Connection}

theorem send_of_room (opened : c.closed = false) (room : c.HasRoom) (batch : List Message) :
    c.send batch = ({ c with queue := c.queue ++ [batch] }, none) := by
  rw [send, if_neg (by simp [opened]), if_neg (by simp [room.1]), if_pos room.2]

theorem send_of_full (opened : c.closed = false) (full : ¬c.HasRoom) (batch : List Message) :
    (c.send batch).1 = c.close ∧ (c.send batch).2 ≠ none := by
  unfold send
  split_ifs with closed gone room
  · rw [opened] at closed
    cases closed
  · exact ⟨rfl, nofun⟩
  · exact absurd ⟨by simpa using gone, room⟩ full
  · exact ⟨rfl, nofun⟩

end Connection

namespace Relay

/-! ## Closed connections -/

section Closed

variable {r : Relay} {c : ConnId}

theorem lt_of_closed {h : Hub} (hc : (h.connection c).closed = true) :
    c < h.connections.length := by
  by_contra hlt
  rw [Hub.connection, List.getD_eq_getElem?_getD,
    List.getElem?_eq_none (Nat.not_lt.1 hlt)] at hc
  cases hc

theorem closed_modifyConnection (hc : (r.hub.connection c).closed = true) (s : SessionId)
    {f : Connection → Connection}
    (hf : ∀ x, x.closed = true → (f x).closed = true ∧ (f x).queue <:+ x.queue) :
    ((r.modifyConnection s f).hub.connection c).closed = true ∧
      ((r.modifyConnection s f).hub.connection c).queue <:+ (r.hub.connection c).queue := by
  rw [modifyConnection, Hub.connection_modifyConnection]
  split_ifs with he
  · rw [he.1]
    exact hf _ hc
  · exact ⟨hc, List.suffix_refl _⟩

/-- A closed connection stays closed, and nothing is added to its queue. -/
theorem Sound.closed_step (hr : r.Sound) {act : Act} (ha : r.Allows act)
    (hc : (r.hub.connection c).closed = true) :
    ((r.step act).hub.connection c).closed = true ∧
      ((r.step act).hub.connection c).queue <:+ (r.hub.connection c).queue := by
  have untouched {h : Hub} (hh : h.connection c = r.hub.connection c) :
      (h.connection c).closed = true ∧ (h.connection c).queue <:+ (r.hub.connection c).queue :=
    by
      rw [hh]
      exact ⟨hc, List.suffix_refl _⟩
  cases act with
  | accept capacity =>
    exact untouched (aside_accept (i := 0) (lt_of_closed hc) capacity).connection
  | handle s run => exact untouched ((((hr.desk ha.1).regards_handleRun run).hushed c).closed hc)
  | disconnect s => exact untouched (((r.desk s).regards_disconnect.hushed c).closed hc)
  | vanish s => exact closed_modifyConnection hc s fun x hx => ⟨hx, List.suffix_refl _⟩
  | reply s batch =>
    refine closed_modifyConnection hc s fun x hx => ?_
    rw [Connection.send_of_closed hx]
    exact ⟨hx, List.suffix_refl _⟩
  | drain s => exact closed_modifyConnection hc s fun x hx => ⟨hx, List.nil_suffix⟩
  | close s => exact closed_modifyConnection hc s fun x _ => ⟨rfl, List.suffix_refl _⟩
  | dropWriter s => exact closed_modifyConnection hc s fun x hx => ⟨hx, List.nil_suffix⟩
  | drop s => exact closed_modifyConnection hc s fun x hx => ⟨hx, List.suffix_refl _⟩
  | tick i =>
    refine untouched ?_
    rw [Relay.step]
    split
    · rfl
    · exact (Hub.loyal_fire i _).closed hc
  | late i epoch => exact untouched ((Hub.loyal_fire i epoch).closed hc)
  | wait now => exact untouched rfl
  | fail request on => exact untouched rfl

theorem Sound.closed_steps : ∀ {acts : List Act} {r : Relay}, r.Sound → r.Allowed acts →
    (r.hub.connection c).closed = true → ((r.steps acts).hub.connection c).closed = true
  | [], _, _, _, hc => hc
  | _ :: _, _, hr, ha, hc => (hr.step ha.1).closed_steps ha.2 (hr.closed_step ha.1 hc).1

/-- Whatever comes, the connection is closed, and at most its queue is emptied. -/
def Muted (r : Relay) (c : ConnId) : Prop :=
  ∀ acts act, r.Allowed acts → (r.steps acts).Allows act →
    ((r.steps acts).hub.connection c).closed = true ∧
    (((r.steps acts).step act).hub.connection c).queue <:+
      ((r.steps acts).hub.connection c).queue

theorem Sound.muted (hr : r.Sound) (hc : (r.hub.connection c).closed = true) : r.Muted c := by
  intro acts act allowed allows
  have closed := hr.closed_steps allowed hc
  exact ⟨closed, ((hr.steps allowed).closed_step allows closed).2⟩

end Closed

/-! ## Orderly ends -/

/-- Connections last as long as their sessions, and sessions leave before they end. -/
def Act.Orderly : Act → Prop
  | .vanish _ | .drop _ => False
  | _ => True

instance : DecidablePred Act.Orderly
  | .vanish _ | .drop _ => inferInstanceAs (Decidable False)
  | .accept _ | .handle .. | .disconnect _ | .reply .. | .drain _ | .close _ | .dropWriter _
  | .tick _ | .late .. | .wait _ | .fail .. => inferInstanceAs (Decidable True)

/-- A state that a relay comes to from its start by orderly acts. -/
def Orderly (r : Relay) : Prop :=
  ∃ archive config epoch readOnly acts, (start archive config epoch readOnly).Allowed acts ∧
    (∀ act ∈ acts, act.Orderly) ∧ r = (start archive config epoch readOnly).steps acts

/-- Every connection is still there, and if it is open it watches what its session holds. -/
structure Tended (r : Relay) : Prop extends Sound r where
  alive : ∀ s < r.sessions.length, r.hub.isAlive s = true
  watches : ∀ s < r.sessions.length, ∀ i, (r.session s).stream = some i →
    (r.hub.connection s).closed = false → s ∈ (r.hub.stream i).subscribers

section Tended

variable {r : Relay} {s : SessionId}

theorem Tended.loyal (hr : r.Tended) {hub : Hub} (sound : Sound { r with hub })
    (loyal : ∀ c, Hub.Loyal c r.hub hub) : Tended { r with hub } where
  toSound := sound
  alive s hs := (loyal s).alive.trans (hr.alive s hs)
  watches s hs i hi opened :=
    (loyal s).subscribed i (hr.watches s hs i hi ((loyal s).opened opened)) (hr.alive s hs) opened

theorem Tended.desk (hr : r.Tended) (hs : s < r.sessions.length) : (r.desk s).Watches := by
  intro i hi _ opened
  rw [Relay.desk, hr.connections s hs] at opened ⊢
  exact hr.watches s hs i hi opened

theorem Tended.put (hr : r.Tended) (hs : s < r.sessions.length) {d : Desk}
    (turn : (r.desk s).Turn r.held d) (regards : (r.desk s).Regards d) : (r.put s d).Tended where
  toSound := hr.toSound.put hs turn
  alive t ht := by
    rw [Relay.put, List.length_set] at ht
    exact (regards.hushed t).alive.trans (hr.alive t ht)
  watches t ht i hi opened := by
    have connection : (r.desk s).session.connection = s := hr.connections s hs
    rw [Relay.put, List.length_set] at ht
    rw [session_put r hs] at hi
    split_ifs at hi with he
    · subst he
      have own := regards.own (hr.desk hs) i hi
      rw [turn.connection, connection] at own
      exact own ((regards.hushed t).alive.trans (hr.alive t hs)) opened
    · have loyal := regards.others t (by rwa [connection])
      exact loyal.subscribed i (hr.watches t ht i hi (loyal.opened opened)) (hr.alive t ht) opened

/-- Something happens to a connection that neither does away with it nor opens it again. -/
theorem Tended.modifyConnection (hr : r.Tended) (s : SessionId) {f : Connection → Connection}
    (alive : ∀ c, (f c).alive = c.alive) (opened : ∀ c, (f c).closed = false → c.closed = false) :
    (r.modifyConnection s f).Tended where
  toSound := hr.toSound.modifyConnection s fun c hc => (alive c).symm.trans hc
  alive t ht := by
    rw [Relay.modifyConnection, Hub.isAlive, Hub.connection_modifyConnection]
    split_ifs with he
    · rw [alive, he.1]
      exact hr.alive t ht
    · exact hr.alive t ht
  watches t ht i hi ho := by
    refine hr.watches t ht i hi ?_
    rw [Relay.modifyConnection, Hub.connection_modifyConnection] at ho
    split_ifs at ho with he
    · rw [← he.1]
      exact opened _ ho
    · exact ho

theorem length_connections (hr : r.Sound) : r.hub.connections.length = r.sessions.length :=
  hr.hub.connections.trans r.length_held

theorem session_accept (hr : r.Sound) (capacity : Nat) (s : Nat) :
    (r.accept capacity).1.session s =
      if s = r.sessions.length then ⟨s, none⟩ else r.session s := by
  rw [accept, Hub.connect, length_connections hr]
  simp only [session, List.getD_eq_getElem?_getD, List.getElem?_append]
  split_ifs with old new new
  · omega
  · rfl
  · simp [new]
  · rw [List.getElem?_eq_none (by simp; omega), List.getElem?_eq_none (by omega)]

theorem Tended.accept (hr : r.Tended) (capacity : Nat) : (r.accept capacity).1.Tended where
  toSound := hr.toSound.accept capacity
  alive s hs := by
    have length := length_connections hr.toSound
    rcases Nat.lt_succ_iff_lt_or_eq.1 (by simpa [Relay.accept] using hs) with hs | rfl
    · exact (Hub.isAlive_connect r.hub capacity (length ▸ hs)).trans (hr.alive s hs)
    · simp [Relay.accept, Hub.connect, Hub.isAlive, Hub.connection, ← length, Connection.ofCapacity]
  watches s hs i hi opened := by
    rw [session_accept hr.toSound] at hi
    split_ifs at hi with new
    have old : s < r.sessions.length := by
      simp only [Relay.accept, List.length_append, List.length_singleton] at hs
      exact Nat.lt_of_le_of_ne (Nat.le_of_lt_succ hs) new
    refine hr.watches s old i hi ?_
    have same := (aside_accept (r := r) (i := i) (length_connections hr.toSound ▸ old)
      capacity).connection
    rwa [same] at opened

theorem Tended.step (hr : r.Tended) {act : Act} (ha : r.Allows act) (orderly : act.Orderly) :
    (r.step act).Tended := by
  have sound := hr.toSound.step ha
  cases act with
  | accept capacity => exact hr.accept capacity
  | handle s run =>
    exact hr.put ha.1 ((hr.toSound.desk ha.1).handleRun run ha.2)
      ((hr.toSound.desk ha.1).regards_handleRun run)
  | disconnect s =>
    exact hr.put ha.1 (hr.toSound.desk ha.1).disconnect (r.desk s).regards_disconnect
  | vanish s => exact orderly.elim
  | reply s batch =>
    refine hr.modifyConnection s (fun c => Hub.alive_send c batch) fun c opened => ?_
    by_contra closed
    rw [Connection.send_of_closed (Bool.eq_true_of_not_eq_false closed)] at opened
    exact closed opened
  | drain s => exact hr.modifyConnection s (fun _ => rfl) fun _ opened => opened
  | close s => exact hr.modifyConnection s (fun _ => rfl) fun _ opened => nomatch opened
  | dropWriter s => exact hr.modifyConnection s (fun _ => rfl) fun _ opened => opened
  | drop s => exact orderly.elim
  | tick i =>
    rw [Relay.step] at sound ⊢
    split
    · exact hr
    · next timer ht =>
      rw [ht] at sound
      exact hr.loyal sound fun _ => Hub.loyal_fire i _
  | late i epoch => exact hr.loyal sound fun _ => Hub.loyal_fire i epoch
  | wait now =>
    exact hr.loyal sound fun _ => Hub.loyal_of_connections rfl fun _ => List.Subset.refl _
  | fail request on =>
    exact hr.loyal sound fun _ => Hub.loyal_of_connections rfl fun _ => List.Subset.refl _

theorem start_tended (archive : Archive) (config : ReplayConfig) (epoch : Int64) (readOnly : Bool) :
    (start archive config epoch readOnly).Tended where
  toSound := start_sound archive config epoch readOnly
  alive s hs := absurd hs (Nat.not_lt_zero s)
  watches s hs := absurd hs (Nat.not_lt_zero s)

theorem Tended.steps : ∀ {acts : List Act} {r : Relay}, r.Tended → r.Allowed acts →
    (∀ act ∈ acts, act.Orderly) → (r.steps acts).Tended
  | [], _, hr, _, _ => hr
  | act :: acts, _, hr, ha, orderly =>
    (hr.step ha.1 (orderly act (by simp))).steps ha.2 fun a (h : a ∈ acts) =>
      orderly a (by simp [h])

theorem Orderly.tended (h : r.Orderly) : r.Tended := by
  obtain ⟨archive, config, epoch, readOnly, acts, allowed, orderly, rfl⟩ := h
  exact (start_tended archive config epoch readOnly).steps allowed orderly

end Tended

/-! ## Who watches what -/

section Members

variable {r : Relay}

theorem Tended.mem_audience (hr : r.Tended) {i : StreamId} {c : ConnId} :
    c ∈ r.hub.audience i ↔ c ∈ (r.hub.stream i).subscribers := by
  rw [Hub.Confined.mem_audience, and_iff_left_iff_imp]
  exact fun hc => hr.alive c (r.length_held ▸ hr.hub.subscribers i c hc)

theorem stream_of_held {c : ConnId} {o : Option StreamId} (h : r.held[c]? = some o) :
    c < r.sessions.length ∧ (r.session c).stream = o := by
  rw [held, List.getElem?_map, Option.map_eq_some_iff] at h
  obtain ⟨session, hs, rfl⟩ := h
  exact ⟨(List.getElem?_eq_some_iff.1 hs).1, by
    rw [Relay.session, List.getD_eq_getElem?_getD, hs, Option.getD_some]⟩

/-- A subscriber is the connection of a session that holds the stream. -/
theorem Tended.stream_of_mem (hr : r.Tended) {i : StreamId} {c : ConnId}
    (hc : c ∈ (r.hub.stream i).subscribers) :
    c < r.sessions.length ∧ (r.session c).stream = some i :=
  stream_of_held (hr.hub.watching i c (hr.mem_audience.2 hc))

theorem Tended.count_eq_one (hr : r.Tended) {i : StreamId} {c : ConnId}
    (hc : c ∈ (r.hub.stream i).subscribers) : (r.hub.stream i).subscribers.count c = 1 := by
  have all : r.hub.audience i = (r.hub.stream i).subscribers :=
    List.filter_eq_self.2 fun d hd => (Hub.Confined.mem_audience.1 (hr.mem_audience.2 hd)).2
  exact List.count_eq_one_of_mem (all ▸ hr.hub.audience_nodup i) hc

/-- A session comes to hold a stream by its own requests only. -/
theorem Sound.stream_step (hr : r.Sound) {act : Act} (ha : r.Allows act) {s : SessionId}
    (hs : s < r.sessions.length) (silent : ∀ run, act ≠ .handle s run)
    (free : (r.session s).stream = none) :
    s < (r.step act).sessions.length ∧ ((r.step act).session s).stream = none := by
  cases act with
  | accept capacity =>
    refine ⟨Nat.lt_of_lt_of_le hs (by simp [Relay.step, Relay.accept]), ?_⟩
    rw [Relay.step, session_accept hr, if_neg (Nat.ne_of_lt hs)]
    exact free
  | handle t run =>
    have other : s ≠ t := fun e => silent run (by rw [e])
    refine ⟨by rwa [Relay.step, Relay.put, List.length_set], ?_⟩
    rw [Relay.step, session_put r ha.1, if_neg other]
    exact free
  | disconnect t =>
    refine ⟨by rwa [Relay.step, Relay.disconnect, Relay.put, List.length_set], ?_⟩
    rw [Relay.step, Relay.disconnect, session_put r ha.1]
    split_ifs with he
    · subst he
      rw [Desk.disconnect, Relay.desk, free]
      exact free
    · exact free
  | vanish t =>
    refine ⟨by rwa [Relay.step, Relay.vanish, List.length_set], ?_⟩
    refine (congrArg Session.stream (session_set r ha.1 _)).trans ?_
    split_ifs
    · rfl
    · exact free
  | tick i =>
    rw [Relay.step]
    split <;> exact ⟨hs, free⟩
  | _ => exact ⟨hs, free⟩

theorem Sound.stream_steps {s : SessionId} : ∀ {acts : List Act} {r : Relay}, r.Sound →
    r.Allowed acts → s < r.sessions.length → (∀ act ∈ acts, ∀ run, act ≠ .handle s run) →
      (r.session s).stream = none → ((r.steps acts).session s).stream = none
  | [], _, _, _, _, _, free => free
  | act :: acts, _, hr, ha, hs, silent, free => by
    obtain ⟨hs, free⟩ := hr.stream_step ha.1 hs (silent act (by simp)) free
    exact (hr.step ha.1).stream_steps ha.2 hs (fun a (h : a ∈ acts) => silent a (by simp [h])) free

theorem stream_disconnect {s : SessionId} (hs : s < r.sessions.length) :
    ((r.step (.disconnect s)).session s).stream = none := by
  rw [Relay.step, Relay.disconnect, session_put r hs, if_pos rfl, Desk.disconnect]
  split
  · assumption
  · rfl

/-- The connection of a session that has left watches nothing until the session asks for a stream
again. -/
theorem Tended.not_mem_of_disconnect (hr : r.Tended) {s : SessionId} {acts : List Act}
    (allowed : r.Allowed (.disconnect s :: acts)) (orderly : ∀ act ∈ acts, act.Orderly)
    (silent : ∀ act ∈ acts, ∀ run, act ≠ .handle s run) (i : StreamId) :
    s ∉ ((r.steps (.disconnect s :: acts)).hub.stream i).subscribers := by
  obtain ⟨left, later⟩ := allowed
  have gone := hr.step left trivial
  have there : s < (r.step (.disconnect s)).sessions.length := by
    rw [Relay.step, Relay.disconnect, Relay.put, List.length_set]
    exact left.1
  have free := gone.toSound.stream_steps later there silent (stream_disconnect left.1)
  intro hm
  have held := ((gone.steps later orderly).stream_of_mem hm).2
  rw [free] at held
  cases held

end Members

/-! ## What is heard -/

/-- The stream of the session plays live. -/
def Addressed (r : Relay) (s : SessionId) : Prop :=
  ∃ i, (r.session s).stream = some i ∧ (r.hub.stream i).live = true ∧
    (r.hub.stream i).playing = true

/-- What becomes of the connections when a run of events is received: those that are addressed and
have room are queued the run, those that have none are closed for good and watch nothing any more,
and nothing happens to the others. -/
structure Hears (r : Relay) (run : List Message) (r' : Relay) : Prop where
  queued : ∀ t < r.sessions.length, r.Addressed t → let c := r.hub.connection t
    c.closed = false → c.HasRoom → r'.hub.connection t = { c with queue := c.queue ++ [run] }
  full : ∀ t < r.sessions.length, r.Addressed t → let c := r.hub.connection t
    c.closed = false → ¬c.HasRoom → r'.hub.connection t = c.close ∧
      (∀ i, t ∉ (r'.hub.stream i).subscribers) ∧ r'.Muted t
  others : ∀ t < r.sessions.length, ¬r.Addressed t ∨ (r.hub.connection t).closed = true →
    r'.hub.connection t = r.hub.connection t

section Hears

variable {r : Relay}

/-- The events may be stored first, which is no concern of those who watch. -/
theorem step_data (r : Relay) (s : SessionId) (run : List Message) : ∃ archive,
    (r.step (.handle s (.data run))).hub = ({ r.hub with archive } : Hub).broadcast run := by
  rw [step, Desk.handleRun, Desk.handleData_eq]
  split_ifs <;> exact ⟨_, rfl⟩

theorem Sound.allows_data (hr : r.Sound) {s : SessionId} (hs : s < r.sessions.length)
    (run : List Message) : r.Allows (.handle s (.data run)) := by
  refine ⟨hs, ?_⟩
  obtain ⟨archive, hub⟩ := step_data r s run
  have sound : ({ r.hub with archive } : Hub).Sound r.held :=
    hr.hub.congr rfl rfl rfl rfl rfl fun _ ha => ha
  rw [hub, (sound.broadcast run).2]
  exact hr.hub.few

/-- A stream that is fed what is received is one that plays live. -/
theorem Tended.addressed_of_listed (hr : r.Tended) {i : StreamId} {t : ConnId}
    (ht : t ∈ r.hub.audience i) (listed : r.hub.Listed i) : r.Addressed t := by
  have known := hr.hub.known_of_catalog (hr.hub.live _ listed)
  exact ⟨i, (hr.stream_of_mem (hr.mem_audience.1 ht)).2,
    (hr.hub.steady i known).listed listed⟩

/-- Who is addressed watches a stream that is fed what is received. -/
theorem Tended.fed_of_addressed (hr : r.Tended) {t : SessionId} (ht : t < r.sessions.length)
    (addressed : r.Addressed t) (opened : (r.hub.connection t).closed = false) :
    ∃ i, t ∈ r.hub.audience i ∧ r.hub.Listed i := by
  obtain ⟨i, hi, live, playing⟩ := addressed
  have watching := hr.mem_audience.2 (hr.watches t ht i hi opened)
  have known := hr.hub.known_of_catalog (hr.hub.catalog_of_watched (List.ne_nil_of_mem watching))
  have served := (hr.hub.steady i known).served playing (List.ne_nil_of_mem watching)
  rw [if_pos live] at served
  exact ⟨i, watching, served⟩

theorem Tended.hears (hr : r.Tended) {s : SessionId} (hs : s < r.sessions.length)
    {run : List Message} (some : run ≠ []) : r.Hears run (r.step (.handle s (.data run))) := by
  have after := hr.step (hr.allows_data hs run) trivial
  obtain ⟨archive, hub⟩ := step_data r s run
  generalize r.step (.handle s (.data run)) = r' at after hub ⊢
  have sound : ({ r.hub with archive } : Hub).Sound r.held :=
    hr.hub.congr rfl rfl rfl rfl rfl fun _ ha => ha
  have sent {t : SessionId} {i : StreamId} (watching : t ∈ r.hub.audience i)
      (listed : r.hub.Listed i) : Hub.Sent i t run { r.hub with archive } r'.hub :=
    hub ▸ sound.sent_broadcast watching listed some
  refine ⟨fun t ht addressed => ?queued, fun t ht addressed => ?full, fun t ht away => ?others⟩
  case queued =>
    intro c opened room
    obtain ⟨i, watching, listed⟩ := hr.fed_of_addressed ht addressed opened
    rw [(sent watching listed).connection]
    exact congrArg Prod.fst (Connection.send_of_room opened room run)
  case full =>
    intro c opened full
    obtain ⟨i, watching, listed⟩ := hr.fed_of_addressed ht addressed opened
    obtain ⟨closes, refused⟩ := Connection.send_of_full opened full run
    have closed : r'.hub.connection t = c.close := (sent watching listed).connection.trans closes
    refine ⟨closed, fun j hj => ?_, after.toSound.muted (by rw [closed]; rfl)⟩
    -- the session holds the one stream still, and from that one the connection was dropped
    have alive : r'.hub.isAlive t = true := by
      rw [hub]
      exact (Hub.loyal_broadcast run).alive.trans (hr.alive t ht)
    have held := (hub ▸ (sound.broadcast run).1 : r'.hub.Sound r.held).watching j t
      (Hub.Confined.mem_audience.2 ⟨hj, alive⟩)
    rw [hr.hub.watching i t watching, Option.some_inj, Option.some_inj] at held
    exact refused ((sent watching listed).taken (held ▸ hj))
  case others =>
    rcases away with away | closed
    · rw [hub]
      refine (Hub.aside_broadcast (i := r.hub.streams.length) (fun hl => ?_) (fun j hj hm => ?_)
        run).connection
      · exact Nat.lt_irrefl _ (sound.known_of_live hl)
      · exact away (hr.addressed_of_listed hm (hr.hub.listed_iff.2 hj))
    · rw [hub]
      exact (Hub.loyal_broadcast run).closed closed

end Hears

/-- Every connection is a subscriber of at most one stream and at most once, of the stream that its
session holds, which is one of the catalog; and while it is open it is a subscriber of that one.
Once its session has left it is a subscriber of none. So a run of events is heard once by whoever is
open and addressed, for as long as there is room, and by nobody else. -/
theorem Orderly.heard_once {r : Relay} (h : r.Orderly) :
    (∀ s < r.sessions.length, (r.session s).connection = s) ∧
    (∀ i, ∀ c ∈ (r.hub.stream i).subscribers, c < r.sessions.length ∧
      (r.session c).stream = some i ∧ (r.hub.stream i).subscribers.count c = 1) ∧
    ∀ s < r.sessions.length,
      (∀ i, (r.session s).stream = some i → ((r.hub.stream i).uid, i) ∈ r.hub.catalog ∧
        ((r.hub.connection s).closed = false → s ∈ (r.hub.stream i).subscribers)) ∧
      (∀ acts, r.Allowed (.disconnect s :: acts) →
        (∀ act ∈ acts, act.Orderly ∧ ∀ run, act ≠ .handle s run) →
          ∀ i, s ∉ ((r.steps (.disconnect s :: acts)).hub.stream i).subscribers) ∧
      ∀ run ≠ [], r.Hears run (r.step (.handle s (.data run))) := by
  have hr := h.tended
  refine ⟨hr.connections, fun i c hc => ?_, fun s hs => ⟨fun i hi => ⟨?_, ?_⟩, ?_, ?_⟩⟩
  · obtain ⟨there, holds⟩ := hr.stream_of_mem hc
    exact ⟨there, holds, hr.count_eq_one hc⟩
  · have session := (hr.toSound.desk hs).session
    rw [Relay.desk, hi] at session
    exact hr.hub.holding i (List.mem_of_getElem? session)
  · exact hr.watches s hs i hi
  · exact fun acts allowed later i => hr.not_mem_of_disconnect allowed
      (fun act ha => (later act ha).1) (fun act ha => (later act ha).2) i
  · exact fun run some => hr.hears hs some

/-- Two connections watch the live feed, and the one that holds a single batch falls behind. -/
theorem Orderly.heard_once_behind :
    let run : List Message := [.current 7 (.test ⟨"a", []⟩)]
    let r := (start ⟨.memory, fun _ => false⟩ ⟨10, 250, by decide, by decide⟩ 0 false).steps
      [.accept 4, .accept 1, .handle 0 (.control (.current 0 .start)),
        .handle 1 (.control (.current 0 (.subscribeStream 1))), .handle 0 (.data run)]
    let r' := r.step (.handle 1 (.data run))
    (r.hub.stream 0).subscribers = [0, 1] ∧ (r'.hub.connection 0).queue = [run, run] ∧
      (r'.hub.connection 1).queue = [run] ∧ (∀ i, 1 ∉ (r'.hub.stream i).subscribers) ∧
      r'.Muted 1 := by
  intro run r r'
  have orderly : r.Orderly := by
    refine ⟨_, _, _, _, _, ?_, ?_, rfl⟩
    · decide
    · decide
  have heard := ((heard_once orderly).2.2 1 (by decide)).2.2 run (by decide)
  have first : r.Addressed 0 := ⟨0, by decide⟩
  have second : r.Addressed 1 := ⟨0, by decide⟩
  have queued := heard.queued 0 (by decide) first (by decide) (by decide)
  obtain ⟨closed, gone, muted⟩ := heard.full 1 (by decide) second (by decide) (by decide)
  refine ⟨by decide, ?_, ?_, gone, muted⟩
  · rw [queued]
    decide
  · rw [closed]
    decide

end Relay

end EventRelay
