import EventRelay.Proofs.Sessions

/-!
# What happens elsewhere

A session that holds another stream, or none, does nothing to a stream and to those who watch it,
unless it comes to hold that stream.
-/

namespace EventRelay

namespace Hub

variable {h : Hub} {held : List (Option StreamId)} {i j : StreamId} {c c' : ConnId}

theorem aside_createStream (hi : i < h.streams.length) : Aside i c h h.createStream.1 where
  archive := rfl
  stream := by
    rw [stream_createStream, if_neg (Nat.ne_of_lt hi)]
  connection := rfl

theorem aside_addSubscriber (hj : j < h.streams.length) (hij : i ≠ j) (hc : c ≠ c')
    (away : c ∉ h.audience j) : Aside i c h (h.addSubscriber j c') := by
  obtain ⟨m, rfl | rfl, confined⟩ := confined_addSubscriber h j c'
  · exact confined.aside hij away
  · have enrolled : Aside i c h (h.enrol j c') := ⟨rfl, stream_enrol_ne c' hij, rfl⟩
    refine enrolled.trans (confined.aside hij fun hm => ?_)
    rcases mem_audience_enrol hj hm with hm | ⟨he, -⟩
    · exact away hm
    · exact hc he

theorem aside_leave (hij : i ≠ j) (away : c ∉ h.audience j) (c' : ConnId) :
    Aside i c h ((h.removeSubscriber j c').removeIfAbandoned j).1 := by
  refine ((confined_removeSubscriber h j c').aside hij away).trans ?_
  unfold removeIfAbandoned
  dsimp only
  split_ifs
  · exact ⟨rfl, rfl, rfl⟩
  · exact .refl

end Hub

namespace Desk

open Hub

variable {d : Desk} {held : List (Option StreamId)} {i : StreamId} {c : ConnId}
  (hd : d.Sound held) (hc : c ∈ d.hub.audience i) (hi : d.session.stream ≠ some i)

include hd hc hi

/-- A session that does not hold a stream is not one of those who watch it. -/
theorem Sound.ne_connection : c ≠ d.session.connection := by
  rintro rfl
  exact hi (Option.some.inj (hd.session.symm.trans (hd.hub.watching i _ hc)))

theorem Sound.aside_streamFor : Aside i c d.hub d.streamFor.1.hub ∧ i ≠ d.streamFor.2 := by
  have known := hd.hub.known_of_catalog (hd.hub.catalog_of_watched (List.ne_nil_of_mem hc))
  have other := hd.ne_connection hc hi
  unfold Desk.streamFor
  rcases hs : d.session.stream with _ | j
  · have created := aside_createStream (c := c) known
    have fresh : c ∉ d.hub.createStream.1.audience d.hub.createStream.2 := by
      have new : d.hub.createStream.2 = d.hub.streams.length := rfl
      rw [audience, stream_createStream, if_pos new]
      exact List.not_mem_nil
    refine ⟨created.trans (aside_addSubscriber ?_ (Nat.ne_of_lt known) other fresh),
      Nat.ne_of_lt known⟩
    rw [streams_createStream]
    exact Nat.lt_succ_self _
  · exact ⟨.refl, fun e => hi (by rw [hs, e])⟩

theorem Sound.aside_onStream {f : Hub → StreamId → Hub} (confined : ∀ h i, Confined i h (f h i))
    (few : (d.onStream f).hub.streams.length < 4294967295) :
    Aside i c d.hub (d.onStream f).hub := by
  have few' : d.streamFor.1.hub.streams.length < 4294967295 := by
    have := (confined d.streamFor.1.hub d.streamFor.2).streams
    exact this ▸ few
  obtain ⟨aside, other⟩ := hd.aside_streamFor hc hi
  have tidy := ((hd.streamFor few').1.hub).toTidy
  exact aside.trans ((confined _ _).aside other
    (tidy.away (aside.mem_audience.2 hc) (Ne.symm other)))

theorem Sound.aside_leave {j : StreamId} (hj : d.session.stream = some j) :
    Aside i c d.hub (d.leave j).hub := by
  have hij : i ≠ j := fun e => hi (by rw [hj, e])
  exact Hub.aside_leave hij (hd.hub.away hc (Ne.symm hij)) _

theorem Sound.aside_disconnect : Aside i c d.hub d.disconnect.hub := by
  unfold Desk.disconnect
  split
  · exact .refl
  · next j hj => exact hd.aside_leave hc hi hj

theorem Sound.aside_subscribe {uid : UInt32}
    (after : (d.subscribe uid).1.session.stream ≠ some i) :
    Aside i c d.hub (d.subscribe uid).1.hub := by
  have other := hd.ne_connection hc hi
  unfold Desk.subscribe at after ⊢
  rcases ht : d.hub.getStream? uid with _ | target
  · exact .refl
  have listed := mem_catalog ht
  have known := (hd.hub.catalog _ listed).1
  rw [ht] at after
  rcases hs : d.session.stream with _ | current
  · rw [hs] at after
    have hij : i ≠ target := fun e => after (congrArg some e.symm)
    exact aside_addSubscriber known hij other (hd.hub.away hc (Ne.symm hij))
  · rw [hs] at after
    dsimp only at after ⊢
    split_ifs at after ⊢ with same
    · exact .refl
    · have hij : i ≠ target := fun e => after (congrArg some e.symm)
      have left := hd.aside_leave hc hi hs
      have sound := hd.leave hs
      refine left.trans (aside_addSubscriber ?_ hij other
        (sound.away (left.mem_audience.2 hc) (Ne.symm hij)))
      have listed' : (uid, target) ∈ (d.leave current).hub.catalog :=
        mem_catalog_leave listed (Ne.symm same) d.session.connection
      exact (sound.catalog _ listed').1

theorem Sound.aside_handleControl {m : Message}
    (few : (d.handleControl m).1.hub.streams.length < 4294967295)
    (after : (d.handleControl m).1.session.stream ≠ some i) :
    Aside i c d.hub (d.handleControl m).1.hub := by
  obtain ⟨timestamp, version, payload⟩ := m
  cases payload with
  | start => exact hd.aside_onStream hc hi confined_startStream few
  | stop => exact hd.aside_onStream hc hi confined_stopStream few
  | seek p => exact hd.aside_onStream hc hi (confined_seekStream · · p) few
  | speed x => exact hd.aside_onStream hc hi (confined_setSpeed · · x) few
  | subscribeStream uid => exact hd.aside_subscribe hc hi after
  | streamDescription text => exact hd.aside_onStream hc hi (confined_describe · · text) few
  | _ => exact .refl

end Desk

namespace Relay

variable {r : Relay} {i : StreamId} {c : ConnId} {s : SessionId}

theorem aside_modifyConnection (hs : (r.session s).connection ≠ c) (f : Connection → Connection) :
    Hub.Aside i c r.hub (r.modifyConnection s f).hub where
  archive := rfl
  stream := rfl
  connection := by
    rw [modifyConnection, Hub.connection_modifyConnection, if_neg fun e => hs e.1]

theorem aside_accept (hc : c < r.hub.connections.length) (capacity : Nat) :
    Hub.Aside i c r.hub (r.accept capacity).1.hub where
  archive := rfl
  stream := rfl
  connection := r.hub.connection_connect capacity hc

end Relay

end EventRelay
