import EventRelay.Proofs.NormalForm

/-!
# A body tells where it ends

The fields of a known kind are read from the front of a body, and nothing that follows them has a
say in it: every count stands in front of what it counts, and what a field holds is looked at only
when all its bytes are there. So the fields are read alike whatever follows them, and a body that
breaks off inside them is truncated and nothing else. A body of the current layout ends with its
fields, and one of a newer layout may go on.
-/

namespace EventRelay.Wire

namespace Layout

variable {α β : Type} {read : Bytes → Except Flaw (α × Bytes)}

/-- A value is read from these bytes, whatever follows them, and they are truncated wherever they
break off. -/
structure Takes (read : Bytes → Except Flaw (α × Bytes)) (front : Bytes) (x : α) : Prop where
  append : ∀ rest, read (front ++ rest) = .ok (x, rest)
  truncated : ∀ short more, front = short ++ more → more ≠ [] → read short = .error .truncated

/-- What is read tells where it ends. -/
structure Delimited (read : Bytes → Except Flaw (α × Bytes)) : Prop where
  takes : ∀ {bytes x rest}, read bytes = .ok (x, rest) →
    ∃ front, bytes = front ++ rest ∧ Takes read front x

/-! ## Putting readers together -/

theorem delimited_ok (x : α) : Delimited fun rest => .ok (x, rest) where
  takes h := by
    cases h
    refine ⟨[], rfl, fun _ => rfl, fun short more whole some => ?_⟩
    exact absurd (List.nil_eq_append_iff.1 whole).2 some

theorem delimited_error (e : Flaw) :
    Delimited fun _ => (.error e : Except Flaw (α × Bytes)) := ⟨nofun⟩

theorem Delimited.congr {read' : Bytes → Except Flaw (α × Bytes)} (h : Delimited read)
    (same : ∀ bytes, read' bytes = read bytes) : Delimited read' := by
  rwa [funext same]

/-- A break lies within what is read first, or behind all of it. -/
theorem Takes.andThen {next : α → Bytes → Except Flaw (β × Bytes)} {front front' : Bytes} {x : α}
    {y : β} (h : Takes read front x) (h' : Takes (next x) front' y) :
    Takes (fun bytes => match read bytes with
      | .error e => .error e
      | .ok (x, rest) => next x rest) (front ++ front') y where
  append rest := by
    simp only [List.append_assoc, h.append, h'.append]
  truncated short more whole some := by
    rcases List.append_eq_append_iff.1 whole with ⟨short', rfl, whole'⟩ | ⟨more', whole', rfl⟩
    · simp only [h.append, h'.truncated short' more whole' some]
    · rcases more' with _ | ⟨b, more'⟩
      · rw [List.append_nil] at whole'
        have here := h.append []
        have there := h'.truncated [] front' rfl some
        rw [List.append_nil, whole'] at here
        simp only [here, there]
      · simp only [h.truncated short _ whole' (List.cons_ne_nil b more')]

theorem Delimited.andThen {next : α → Bytes → Except Flaw (β × Bytes)} (h : Delimited read)
    (h' : ∀ x, Delimited (next x)) :
    Delimited fun bytes => match read bytes with
      | .error e => .error e
      | .ok (x, rest) => next x rest where
  takes {bytes y rest} hr := by
    split at hr
    · cases hr
    next x mid hx =>
    obtain ⟨front, rfl, takes⟩ := h.takes hx
    obtain ⟨front', rfl, takes'⟩ := (h' x).takes hr
    exact ⟨front ++ front', (List.append_assoc ..).symm, takes.andThen takes'⟩

/-! ## Readers of a fixed size -/

/-- What takes just so many bytes is truncated by fewer. -/
theorem delimited_of_length {n : Nat}
    (front : ∀ {bytes x rest}, read bytes = .ok (x, rest) → ∃ front, bytes = front ++ rest ∧
      front.length = n ∧ ∀ more, read (front ++ more) = .ok (x, more))
    (short : ∀ {bytes : Bytes}, bytes.length < n → read bytes = .error .truncated) :
    Delimited read where
  takes h := by
    obtain ⟨front, rfl, length, append⟩ := front h
    refine ⟨front, rfl, append, fun part more whole some => short ?_⟩
    have := List.length_pos_of_ne_nil some
    rw [whole, List.length_append] at length
    omega

theorem Exact.delimited {l : Layout α} {n : Nat} (exact : l.Exact) (fixed : l.Fixed n)
    (short : ∀ {bytes : Bytes}, bytes.length < n → l.read bytes = .error .truncated) :
    Delimited l.read :=
  delimited_of_length (fun h => by
    obtain ⟨raw, rfl, hw⟩ := exact.read h
    exact ⟨raw, rfl, fixed.length_write hw, fixed.read_write trivial hw⟩) short

theorem byte_delimited : Delimited byte.read :=
  byte_exact.delimited byte_fixed fun {bytes} h => by
    match bytes, h with
    | [], _ => rfl

theorem word16_delimited : Delimited word16.read :=
  word16_exact.delimited word16_fixed fun {bytes} h => by
    match bytes, h with
    | [], _ | [_], _ => rfl

theorem word32_delimited : Delimited word32.read :=
  word32_exact.delimited word32_fixed fun {bytes} h => by
    match bytes, h with
    | [], _ | [_], _ | [_, _], _ | [_, _, _], _ => rfl

theorem word64_delimited : Delimited word64.read :=
  word64_exact.delimited word64_fixed fun {bytes} h => by
    match bytes, h with
    | [], _ | [_], _ | [_, _], _ | [_, _, _], _ | [_, _, _, _], _ | [_, _, _, _, _], _
    | [_, _, _, _, _, _], _ | [_, _, _, _, _, _, _], _ => rfl

/-- The next bytes, so many of them. -/
def taking (n : Nat) (bytes : Bytes) : Except Flaw (Bytes × Bytes) :=
  match take? n bytes with
  | none => .error .truncated
  | some parts => .ok parts

theorem delimited_taking (n : Nat) : Delimited (taking n) := by
  refine delimited_of_length (n := n) (fun {bytes raw rest} h => ?_) fun {bytes} h => ?_
  · unfold taking at h
    split at h
    · cases h
    next ht =>
    cases h
    obtain ⟨rfl, length⟩ := take?_ok ht
    exact ⟨raw, rfl, length, fun more => by rw [taking, take?_append length]⟩
  · rw [taking, take?_eq, if_neg (Nat.not_le.2 h)]

/-! ## Layouts -/

section Combined

variable {l : Layout α} {l' : Layout β}

theorem Delimited.seq (h : Delimited l.read) (h' : Delimited l'.read) :
    Delimited (l.seq l').read :=
  h.andThen fun a => h'.andThen fun b => delimited_ok (a, b)

theorem Delimited.refine (h : Delimited l.read) (accept : α → Except Flaw β) (forget : β → α) :
    Delimited (l.refine accept forget).read :=
  h.andThen fun a => by
    rcases accept a with e | b
    · exact delimited_error e
    · exact delimited_ok b

theorem Delimited.as (h : Delimited l.read) (view : α → β) (forget : β → α) :
    Delimited (l.as view forget).read := h.refine _ forget

theorem Delimited.readAs (h : Delimited l.read) (make : α → β) : Delimited (l.readAs make) :=
  h.andThen fun a => delimited_ok (make a)

/-- A text made of bytes already taken. -/
def textOf (raw rest : Bytes) : Except Flaw (String × Bytes) :=
  match Utf8.decode raw with
  | .error fault => .error (.badText fault)
  | .ok s => .ok (s, rest)

theorem textOf_delimited (raw : Bytes) : Delimited (textOf raw) := by
  unfold textOf
  rcases Utf8.decode raw with fault | s
  · exact delimited_error (.badText fault)
  · exact delimited_ok s

/-- The bytes of a text are looked at when all of them are there. -/
theorem text_delimited (field : String) : Delimited (text field).read := by
  refine (word16_delimited.andThen fun n =>
    (delimited_taking n.toNat).andThen textOf_delimited).congr fun bytes => ?_
  simp only [text, taking, textOf]
  rcases word16.read bytes with e | ⟨n, rest⟩
  · rfl
  · dsimp only
    rcases take? n.toNat rest with _ | ⟨raw, rest⟩ <;> rfl

theorem readItems_delimited (h : Delimited l.read) : ∀ (n : Nat) (seen : List α),
    Delimited fun bytes => readItems l n bytes seen
  | 0, seen => delimited_ok seen.reverse
  | n + 1, seen => h.andThen fun x => readItems_delimited h n (x :: seen)

theorem Delimited.counted (h : Delimited l.read) (field : String) :
    Delimited (counted field l).read := by
  refine (word16_delimited.andThen fun n => readItems_delimited h n.toNat []).congr fun bytes => ?_
  simp only [Layout.counted]
  rcases word16.read bytes with e | ⟨n, rest⟩ <;> rfl

end Combined

/-! ## Fields -/

theorem int32_delimited : Delimited int32.read := .as word32_delimited _ _
theorem int64_delimited : Delimited int64.read := .as word64_delimited _ _
theorem binary32_delimited : Delimited binary32.read := .as word32_delimited _ _
theorem binary64_delimited : Delimited binary64.read := .as word64_delimited _ _
theorem flag_delimited : Delimited flag.read := .as byte_delimited _ _

theorem color_delimited : Delimited color.read :=
  .as (.seq byte_delimited (.seq byte_delimited (.seq byte_delimited byte_delimited))) _ _

theorem status_delimited : Delimited status.read := .refine byte_delimited _ _
theorem nodeEvent_delimited : Delimited nodeEvent.read := .refine byte_delimited _ _
theorem position_delimited : Delimited position.read := .refine int64_delimited _ _

/-- An address of a family, made of the octets that follow. -/
def addressOf (family : UInt8) (rest : Bytes) : Except Flaw (Address × Bytes) :=
  if family = 4 then octets4.readAs Address.v4 rest
  else if family = 6 then octets6.readAs (fun (high, low) => Address.v6 high low) rest
  else .error (.unknownFamily family)

theorem addressOf_delimited (family : UInt8) : Delimited (addressOf family) := by
  unfold addressOf
  split_ifs
  · exact .readAs word32_delimited Address.v4
  · exact .readAs (.seq word64_delimited word64_delimited) _
  · exact delimited_error (.unknownFamily family)

theorem address_delimited : Delimited address.read := by
  refine .congr (.andThen byte_delimited addressOf_delimited) fun bytes => ?_
  simp only [address, addressOf]
  rcases byte.read bytes with e | ⟨family, rest⟩ <;> rfl

/-! ## The kinds -/

theorem note_delimited : Delimited note.read :=
  .as (.seq (text_delimited _) (.counted int32_delimited _)) _ _

theorem gps_delimited : Delimited gps.read :=
  .as (.seq address_delimited (.seq binary64_delimited
    (.seq binary64_delimited binary64_delimited))) _ _

theorem label_delimited : Delimited label.read :=
  .as (.seq address_delimited (.seq (text_delimited _) (.seq binary32_delimited (.seq
    color_delimited (.seq color_delimited (.seq word32_delimited (.seq flag_delimited
      (text_delimited _)))))))) _ _

theorem edge_delimited : Delimited edge.read :=
  .as (.seq address_delimited (.seq address_delimited (.seq color_delimited (.seq
    binary32_delimited (.seq flag_delimited (.seq word32_delimited (.seq flag_delimited
      (text_delimited _)))))))) _ _

theorem nodeColor_delimited : Delimited nodeColor.read :=
  .as (.seq address_delimited (.seq color_delimited (.seq word32_delimited
    (.seq word32_delimited (text_delimited _))))) _ _

theorem connectivity_delimited : Delimited connectivity.read :=
  .as (.seq address_delimited (.seq (text_delimited _) (.counted address_delimited _))) _ _

theorem dataPoint_delimited : Delimited dataPoint.read :=
  .as (.seq address_delimited (.seq (text_delimited _) (.counted binary64_delimited _))) _ _

theorem nodeStatus_delimited : Delimited nodeStatus.read :=
  .as (.seq address_delimited nodeEvent_delimited) _ _

theorem streamList_delimited : Delimited streamList.read :=
  .counted (.as (.seq word32_delimited (text_delimited _)) _ _) _

end Layout

open Layout

/-- The fields of each kind of the catalog tell where they end. -/
theorem readFields_delimited {kind : Kind} (hk : kind ∈ Kind.catalog) :
    Delimited (readFields kind) := by
  cases kind with
  | status => exact .readAs status_delimited _
  | test => exact .readAs note_delimited _
  | gps => exact .readAs gps_delimited _
  | label => exact .readAs label_delimited _
  | edge => exact .readAs edge_delimited _
  | color => exact .readAs nodeColor_delimited _
  | connectivity => exact .readAs connectivity_delimited _
  | dataPoint => exact .readAs dataPoint_delimited _
  | nodeStatus => exact .readAs nodeStatus_delimited _
  | seek => exact .readAs position_delimited _
  | start => exact delimited_ok Payload.start
  | stop => exact delimited_ok Payload.stop
  | speed => exact .readAs binary32_delimited _
  | playbackTimeRange => exact .readAs (.seq int64_delimited int64_delimited) _
  | listStreams => exact .readAs streamList_delimited _
  | subscribeStream => exact .readAs word32_delimited _
  | streamDescription => exact .readAs (text_delimited _) _
  | hello => exact .readAs word16_delimited _
  | unknown tag => exact absurd hk (Kind.unknown_notMem tag)

/-! ## Bodies -/

/-- A body ends where its fields do. More bytes are unread in the current layout and passed over in
a newer one, and with fewer bytes the body is truncated in every layout. -/
structure EndsItself (kind : Kind) (body : Bytes) (payload : Payload) : Prop where
  unread : ∀ more ≠ [], ∀ version ≤ schemaVersion,
    readBody kind version (body ++ more) = .error (.unread more.length)
  extended : ∀ more, ∀ version > schemaVersion,
    readBody kind version (body ++ more) = .ok payload
  truncated : ∀ short more, body = short ++ more → more ≠ [] → ∀ version,
    readBody kind version short = .error .truncated

theorem endsItself_of_takes {kind : Kind} {body : Bytes} {payload : Payload}
    (h : Takes (readFields kind) body payload) : EndsItself kind body payload where
  unread more some version current := by
    simp only [readBody, h.append, if_pos (And.intro current some)]
  extended more version newer := by
    have out : ¬(version ≤ schemaVersion ∧ more ≠ []) := fun within =>
      UInt16.not_lt.2 within.1 newer
    simp only [readBody, h.append, if_neg out]
  truncated short more whole some version := by
    simp only [readBody, h.truncated short more whole some]

/-- A body that is accepted in the current layout ends with its fields. -/
theorem endsItself_of_readBody {kind : Kind} (known : kind ∈ Kind.catalog) {version : UInt16}
    (current : version ≤ schemaVersion) {body : Bytes} {payload : Payload}
    (h : readBody kind version body = .ok payload) : EndsItself kind body payload := by
  obtain ⟨rest, fields, none⟩ := readBody_ok.1 h
  rw [none current] at fields
  obtain ⟨front, rfl, takes⟩ := (readFields_delimited known).takes fields
  rw [List.append_nil]
  exact endsItself_of_takes takes

end EventRelay.Wire
