import NfsMount.Proofs.Lifecycle

/-!
# `NfsMount.Proofs.Isolation`: one mount among others, on the server

`Mine` says that a request of the mount `i` names what is its own: an owner of the mount, the id
of such an owner, or a session of one. The owners are divided between the mounts by
`mountOf`, and the server gives no id twice.

Such a request leaves alone what belongs to the others (`Frame`). What it returns does not
depend on them either: a server of the mount's own, which gives the same ids, returns the same
(`Beside`).
-/

set_option autoImplicit false

namespace NfsMount.Mount

open NfsMount.Lib NfsMount.XdrCodec NfsMount.Nfs4Types NfsMount.OncRpc NfsMount.Nfs4Client
  NfsMount.Server CompoundServer

variable {Node ι : Type} {e : Export Node} {f : Nat → Nat} {mountOf : ClientOwner4 → ι} {i : ι}
  {s s' : MountServer e}

/-! ### What is whose -/

/-- The first `n` ids of each kind are different. -/
structure DistinctIds (e : Export Node) (n : Nat) : Prop where
  clientId : ∀ j < n, ∀ k < n, e.clientId j = e.clientId k → j = k
  sessionId : ∀ j < n, ∀ k < n, e.sessionId j = e.sessionId k → j = k

/-- Fewer ids are different too. -/
theorem DistinctIds.mono {n k : Nat} (h : DistinctIds e k) (hn : n ≤ k) : DistinctIds e n where
  clientId j hj l hl := h.clientId j (hj.trans_le hn) l (hl.trans_le hn)
  sessionId j hj l hl := h.sessionId j (hj.trans_le hn) l (hl.trans_le hn)

/-- The ids that are in use were given, and a client id leads to its owner. -/
structure Tidy (s : MountServer e) : Prop where
  owner : ∀ owner r, s.clients owner = some r → s.owners r.clientId = some owner
  clientId : ∀ owner r, s.clients owner = some r → ∃ n < s.made, r.clientId = e.clientId n
  sessionId : ∀ sid r, s.sessions sid = some r → ∃ n < s.made, sid = e.sessionId n
  known : ∀ sid r, s.sessions sid = some r → (s.clients r.owner).isSome

/-- The compound is in no session or in one of the mount. -/
def InCompound (mountOf : ClientOwner4 → ι) (i : ι) (s : MountServer e) : Prop :=
  ∀ owner, s.inSession = some owner → mountOf owner = i ∧ (s.clients owner).isSome

/-- The operations of a mount behind a SEQUENCE. -/
def Plain : NfsArgOp4 → Prop
  | .reclaimComplete _ | .putRootFh | .lookup _ | .getFh => True
  | _ => False

/-- A request that names only what belongs to the mount. -/
inductive Mine (mountOf : ClientOwner4 → ι) (i : ι) (s : MountServer e) :
    List NfsArgOp4 → Prop where
  | exchangeId {a : ExchangeId4args} (howner : mountOf a.eiaClientowner = i) :
      Mine mountOf i s [.exchangeId a]
  | createSession {a : CreateSession4args} {owner : ClientOwner4} {r : ClientRecord}
      (howner : mountOf owner = i) (hclient : s.clients owner = some r)
      (hid : r.clientId = a.csaClientid) : Mine mountOf i s [.createSession a]
  | destroySession {a : DestroySession4args} {r : SessionRecord}
      (hsession : s.sessions a.dsaSessionid = some r) (hr : mountOf r.owner = i) :
      Mine mountOf i s [.destroySession a]
  | sequence {a : Sequence4args} {r : SessionRecord} {ops : List NfsArgOp4}
      (hsession : s.sessions a.saSessionid = some r) (hr : mountOf r.owner = i)
      (hops : ∀ op ∈ ops, Plain op) : Mine mountOf i s (.sequence a :: ops)

/-- From `s` to `s'`, the server keeps what belongs to the other mounts, and its files. -/
structure Frame (mountOf : ClientOwner4 → ι) (i : ι) (s s' : MountServer e) : Prop where
  clients : ∀ owner, mountOf owner ≠ i → s'.clients owner = s.clients owner
  sessions : ∀ sid r, mountOf r.owner ≠ i →
    (s'.sessions sid = some r ↔ s.sessions sid = some r)
  files : start s'.files = start s.files

/-- Nothing has changed. -/
theorem Frame.refl (mountOf : ClientOwner4 → ι) (i : ι) (s : MountServer e) :
    Frame mountOf i s s :=
  ⟨fun _ _ => rfl, fun _ _ _ => Iff.rfl, rfl⟩

/-- Two parts of a run. -/
theorem Frame.trans {s'' : MountServer e} (h : Frame mountOf i s s')
    (h' : Frame mountOf i s' s'') : Frame mountOf i s s'' where
  clients owner ho := (h'.clients owner ho).trans (h.clients owner ho)
  sessions sid r hr := (h'.sessions sid r hr).trans (h.sessions sid r hr)
  files := h'.files.trans h.files

/-! ### The operations -/

/-- The server behind an EXCHANGE_ID. -/
def exchanged (s : MountServer e) (owner : ClientOwner4) : MountServer e :=
  { s.setClient owner (s.record owner) with
    owners := Function.update s.owners (s.record owner).clientId (some owner)
    made := s.made + 1 }

/-- What EXCHANGE_ID answers. -/
def exchangeBody (s : MountServer e) (owner : ClientOwner4) : ExchangeId4resok :=
  { e.identity with
    eirClientid := (s.record owner).clientId
    eirSequenceid := (s.record owner).sequence }

/-- EXCHANGE_ID always succeeds, and makes a record of the owner if there is none. -/
theorem exchangeId_eq (s : MountServer e) (a : ExchangeId4args) :
    perform s (.exchangeId a)
      = (.exchangeId ⟨.ok, some (exchangeBody s a.eiaClientowner)⟩,
        exchanged s a.eiaClientowner) := rfl

/-- The server behind a CREATE_SESSION of a client that it knows. -/
def created (s : MountServer e) (owner : ClientOwner4) (r : ClientRecord) : MountServer e :=
  { (s.setClient owner { r with sequence := r.sequence + 1 }).setSession
      (e.sessionId s.made) (some ⟨owner, List.replicate e.fore.caMaxrequests.toNat 0⟩) with
    made := s.made + 1 }

/-- What CREATE_SESSION answers. -/
def createBody (s : MountServer e) (sequence : SequenceId4) : CreateSession4resok :=
  ⟨e.sessionId s.made, sequence, 0, e.fore, e.back⟩

/-- CREATE_SESSION of a client that is known makes a session when the sequence is the next one. -/
theorem createSession_eq {owner : ClientOwner4} {r : ClientRecord} {a : CreateSession4args}
    (howner : s.owners a.csaClientid = some owner) (hclient : s.clients owner = some r) :
    perform s (.createSession a)
      = if a.csaSequence = r.sequence then
          (.createSession ⟨.ok, some (createBody s a.csaSequence)⟩, created s owner r)
        else (.createSession ⟨.seqMisordered, none⟩, s) := by
  show s.createSession a = _
  by_cases hseq : a.csaSequence = r.sequence
  · rw [if_pos hseq, createSession_record howner hclient hseq]
    rfl
  · simp only [MountServer.createSession, howner, record_of_some hclient, if_neg hseq]

/-- DESTROY_SESSION of a session that is known always succeeds. -/
theorem destroySession_eq {r : SessionRecord} {a : DestroySession4args}
    (hsession : s.sessions a.dsaSessionid = some r) :
    perform s (.destroySession a)
      = (.destroySession .ok, s.setSession a.dsaSessionid none) := by
  show s.destroySession a = _
  simp only [MountServer.destroySession, hsession]

/-- What a session says to a SEQUENCE. -/
def slotStatus (r : SessionRecord) (a : Sequence4args) : NfsStat4 :=
  match r.lastIds[a.saSlotid.toNat]? with
  | none => .badSlot
  | some last =>
      if a.saSequenceid = last + 1 then .ok
      else if a.saSequenceid = last then .retryUncachedRep
      else .seqMisordered

/-- SEQUENCE in a session that is known opens it for the compound when the slot's id is next. -/
theorem sequence_eq {r : SessionRecord} {a : Sequence4args}
    (hsession : s.sessions a.saSessionid = some r) :
    perform s (.sequence a)
      = if s.inSession.isSome then (.sequence ⟨.sequencePos, none⟩, s)
        else if slotStatus r a = .ok then
          (.sequence ⟨.ok, some (s.files.sequenced a)⟩, entered s a r)
        else (.sequence ⟨slotStatus r a, none⟩, s) := by
  show s.sequence a = _
  rw [MountServer.sequence]
  split
  · rfl
  · -- The three tests of the server are the cases of `slotStatus`, in this order.
    cases hlast : r.lastIds[a.saSlotid.toNat]? with
    | none =>
        have hstatus : slotStatus r a = .badSlot := by rw [slotStatus, hlast]
        simp only [hsession, hlast, hstatus]
        rfl
    | some last =>
        by_cases hnext : a.saSequenceid = last + 1
        · have hstatus : slotStatus r a = .ok := by rw [slotStatus, hlast]; exact if_pos hnext
          simp only [hsession, hlast, hstatus, if_pos hnext, if_true]
          rfl
        · have hstatus : slotStatus r a
              = if a.saSequenceid = last then .retryUncachedRep else .seqMisordered := by
            rw [slotStatus, hlast]
            exact if_neg hnext
          simp only [hsession, hlast, hstatus, if_neg hnext]
          split <;> rfl

/-- A file operation of a walk, or RECLAIM_COMPLETE. -/
theorem plain_cases {op : NfsArgOp4} (hop : Plain op) (s : MountServer e) :
    (perform s op).2 = s ∨
    (∃ owner, s.inSession = some owner ∧
      (perform s op).2 = s.setClient owner { s.record owner with reclaimed := true }) ∨
    ∃ files, start files = start s.files ∧ (perform s op).2 = { s with files } := by
  -- A file operation changes the files at most, and not what a new walk starts from.
  have hfiles : ∀ op : NfsArgOp4, start (s.files.perform op).2 = start s.files →
      (s.onFiles op).2 = s ∨ (∃ owner, s.inSession = some owner ∧
        (s.onFiles op).2 = s.setClient owner { s.record owner with reclaimed := true }) ∨
      ∃ files, start files = start s.files ∧ (s.onFiles op).2 = { s with files } := by
    intro op hstart
    rw [MountServer.onFiles]
    split
    · exact .inl rfl
    · exact .inr (.inr ⟨_, hstart, rfl⟩)
  cases op with
  | reclaimComplete a =>
      rw [show perform s (.reclaimComplete a) = s.reclaimComplete from rfl,
        MountServer.reclaimComplete]
      cases hin : s.inSession with
      | none => exact .inl rfl
      | some owner =>
          dsimp only
          split
          · exact .inl rfl
          · exact .inr (.inl ⟨owner, rfl, rfl⟩)
  | putRootFh => exact hfiles .putRootFh rfl
  | lookup a =>
      refine hfiles (.lookup a) ?_
      rw [FileServer.perform]
      split
      · rfl
      · split <;> rfl
  | getFh =>
      refine hfiles .getFh ?_
      rw [FileServer.perform]
      split <;> rfl
  | _ => exact hop.elim

/-! ### What an operation leaves alone -/

/-- What is stored is the new entry or an old one. -/
theorem update_eq_some {α β : Type} [DecidableEq α] {g : α → Option β} {a x : α} {b : Option β}
    {c : β} (h : Function.update g a b x = some c) : x = a ∧ b = some c ∨ x ≠ a ∧ g x = some c := by
  by_cases hx : x = a
  · subst hx
    rw [Function.update_self] at h
    exact .inl ⟨rfl, h⟩
  · rw [Function.update_of_ne hx] at h
    exact .inr ⟨hx, h⟩

/-- One entry is stored in two maps. -/
theorem update_congr {α β : Type} [DecidableEq α] {g g' : α → Option β} {a x : α} {b : Option β}
    (h : g x = g' x) : Function.update g a b x = Function.update g' a b x := by
  by_cases hx : x = a
  · rw [hx, Function.update_self, Function.update_self]
  · rw [Function.update_of_ne hx, Function.update_of_ne hx, h]

/-- A client after a record was set is that one, or was there before. -/
theorem clients_setClient {owner owner' : ClientOwner4} {r r' : ClientRecord}
    (h : (s.setClient owner r).clients owner' = some r') :
    owner' = owner ∧ r' = r ∨ owner' ≠ owner ∧ s.clients owner' = some r' := by
  rcases update_eq_some h with ⟨rfl, hr⟩ | hold
  · exact .inl ⟨rfl, (Option.some.inj hr).symm⟩
  · exact .inr hold

/-- A client stays known. -/
theorem known_setClient {owner owner' : ClientOwner4} (r : ClientRecord)
    (h : (s.clients owner').isSome) : ((s.setClient owner r).clients owner').isSome := by
  show (Function.update s.clients owner (some r) owner').isSome
  by_cases hne : owner' = owner
  · rw [hne, Function.update_self]
    rfl
  · rw [Function.update_of_ne hne]
    exact h

/-- The clients of the others stay as they are. -/
theorem clients_setClient_of_ne {owner owner' : ClientOwner4} (ho : mountOf owner = i)
    (ho' : mountOf owner' ≠ i) (r : ClientRecord) :
    (s.setClient owner r).clients owner' = s.clients owner' :=
  Function.update_of_ne (by rintro rfl; exact ho' ho) _ _

/-- The record of an owner is the one that is kept, or one with the next client id. -/
theorem record_cases (s : MountServer e) (owner : ClientOwner4) :
    s.clients owner = some (s.record owner) ∨
      s.clients owner = none ∧ (s.record owner).clientId = e.clientId s.made := by
  rw [MountServer.record]
  cases hclient : s.clients owner with
  | none => exact .inr ⟨rfl, rfl⟩
  | some r => exact .inl rfl

/-- The id of a record is one that was given, or the next one. -/
theorem Tidy.record_clientId (hs : Tidy s) (owner : ClientOwner4) :
    ∃ n < s.made + 1, (s.record owner).clientId = e.clientId n := by
  rcases record_cases s owner with hclient | ⟨-, hid⟩
  · obtain ⟨n, hn, hid⟩ := hs.clientId owner _ hclient
    exact ⟨n, Nat.lt_succ_of_lt hn, hid⟩
  · exact ⟨s.made, Nat.lt_succ_self _, hid⟩

/-- Two owners do not have one id. -/
theorem Tidy.clientId_ne {n : Nat} (hs : Tidy s) (hids : DistinctIds e n) (hmade : s.made < n)
    {owner owner' : ClientOwner4} (hne : owner' ≠ owner) {r : ClientRecord}
    (hr : s.clients owner' = some r) : r.clientId ≠ (s.record owner).clientId := by
  intro heq
  rcases record_cases s owner with hclient | ⟨-, hid⟩
  · -- An id leads to one owner.
    have howner := hs.owner owner _ hclient
    rw [← heq, hs.owner owner' r hr, Option.some.injEq] at howner
    exact hne howner
  · -- The next id was not given before.
    obtain ⟨k, hk, hrk⟩ := hs.clientId owner' r hr
    have := hids.clientId k (hk.trans hmade) s.made hmade (hrk.symm.trans (heq.trans hid))
    omega

/-- EXCHANGE_ID gives an id that is not in use. -/
theorem tidy_exchanged {n : Nat} (hs : Tidy s) (hids : DistinctIds e n) (hmade : s.made < n)
    (owner : ClientOwner4) : Tidy (exchanged s owner) where
  owner owner' r hr := by
    show Function.update s.owners (s.record owner).clientId (some owner) r.clientId = some owner'
    rcases clients_setClient hr with ⟨rfl, rfl⟩ | ⟨hne, hold⟩
    · rw [Function.update_self]
    · rw [Function.update_of_ne (hs.clientId_ne hids hmade hne hold)]
      exact hs.owner owner' r hold
  clientId owner' r hr := by
    rcases clients_setClient hr with ⟨rfl, rfl⟩ | ⟨-, hold⟩
    · exact hs.record_clientId owner'
    · obtain ⟨k, hk, hid⟩ := hs.clientId owner' r hold
      exact ⟨k, Nat.lt_succ_of_lt hk, hid⟩
  sessionId sid r hr := by
    obtain ⟨k, hk, hsid⟩ := hs.sessionId sid r hr
    exact ⟨k, Nat.lt_succ_of_lt hk, hsid⟩
  known sid r hr := known_setClient _ (hs.known sid r hr)

/-- EXCHANGE_ID touches the owner's client only. -/
theorem frame_exchanged (s : MountServer e) {owner : ClientOwner4} (ho : mountOf owner = i) :
    Frame mountOf i s (exchanged s owner) where
  clients _ ho' := clients_setClient_of_ne ho ho' _
  sessions _ _ _ := Iff.rfl
  files := rfl

/-- A client that is known gets another record with its id. -/
theorem tidy_setClient (hs : Tidy s) {owner : ClientOwner4} {r r' : ClientRecord}
    (hclient : s.clients owner = some r) (hid : r'.clientId = r.clientId) :
    Tidy (s.setClient owner r') where
  owner owner' r'' hr := by
    show s.owners r''.clientId = some owner'
    rcases clients_setClient hr with ⟨rfl, rfl⟩ | ⟨-, hold⟩
    · rw [hid]
      exact hs.owner owner' r hclient
    · exact hs.owner owner' r'' hold
  clientId owner' r'' hr := by
    rcases clients_setClient hr with ⟨rfl, rfl⟩ | ⟨-, hold⟩
    · rw [hid]
      exact hs.clientId owner' r hclient
    · exact hs.clientId owner' r'' hold
  sessionId := hs.sessionId
  known sid r'' hr := known_setClient _ (hs.known sid r'' hr)

/-- A record that is set is one of the mount. -/
theorem frame_setClient (s : MountServer e) {owner : ClientOwner4} (ho : mountOf owner = i)
    (r : ClientRecord) : Frame mountOf i s (s.setClient owner r) where
  clients _ ho' := clients_setClient_of_ne ho ho' r
  sessions _ _ _ := Iff.rfl
  files := rfl

/-- A session that was given, or none in its place. -/
theorem tidy_setSession (hs : Tidy s) {sid : SessionId4} {r : Option SessionRecord}
    (hsid : ∃ n < s.made, sid = e.sessionId n)
    (hr : ∀ r', r = some r' → (s.clients r'.owner).isSome) : Tidy (s.setSession sid r) where
  owner := hs.owner
  clientId := hs.clientId
  sessionId sid' r' hsession := by
    rcases update_eq_some hsession with ⟨rfl, -⟩ | ⟨-, hold⟩
    · exact hsid
    · exact hs.sessionId sid' r' hold
  known sid' r' hsession := by
    rcases update_eq_some hsession with ⟨-, hnew⟩ | ⟨-, hold⟩
    · exact hr r' hnew
    · exact hs.known sid' r' hold

/-- A session that is set was and is one of the mount. -/
theorem frame_setSession (s : MountServer e) {sid : SessionId4} {r : Option SessionRecord}
    (hold : ∀ r', s.sessions sid = some r' → mountOf r'.owner = i)
    (hnew : ∀ r', r = some r' → mountOf r'.owner = i) :
    Frame mountOf i s (s.setSession sid r) where
  clients _ _ := rfl
  sessions sid' r' hr' := by
    show Function.update s.sessions sid r sid' = some r' ↔ _
    by_cases hne : sid' = sid
    · subst hne
      rw [Function.update_self]
      exact iff_of_false (fun h => hr' (hnew r' h)) fun h => hr' (hold r' h)
    · rw [Function.update_of_ne hne]
  files := rfl

/-- Skipping an id takes none into use. -/
theorem tidy_made (hs : Tidy s) : Tidy { s with made := s.made + 1 } where
  owner := hs.owner
  clientId owner r hr := by
    obtain ⟨k, hk, hid⟩ := hs.clientId owner r hr
    exact ⟨k, Nat.lt_succ_of_lt hk, hid⟩
  sessionId sid r hr := by
    obtain ⟨k, hk, hsid⟩ := hs.sessionId sid r hr
    exact ⟨k, Nat.lt_succ_of_lt hk, hsid⟩
  known := hs.known

/-- Skipping an id touches nothing. -/
theorem frame_made (s : MountServer e) : Frame mountOf i s { s with made := s.made + 1 } :=
  ⟨fun _ _ => rfl, fun _ _ _ => Iff.rfl, rfl⟩

/-- The id of a new session is not in use. -/
theorem Tidy.sessions_next {n : Nat} (hs : Tidy s) (hids : DistinctIds e n) (hmade : s.made < n) :
    s.sessions (e.sessionId s.made) = none := by
  rw [Option.eq_none_iff_forall_ne_some]
  intro r hr
  obtain ⟨k, hk, hsid⟩ := hs.sessionId _ r hr
  have := hids.sessionId s.made hmade k (hk.trans hmade) hsid
  omega

/-- CREATE_SESSION counts the sequence, sets the session and the next id. -/
theorem created_eq (s : MountServer e) (owner : ClientOwner4) (r : ClientRecord) :
    created s owner r
      = ({ s.setClient owner { r with sequence := r.sequence + 1 } with
          made := s.made + 1 } : MountServer e).setSession (e.sessionId s.made)
            (some ⟨owner, List.replicate e.fore.caMaxrequests.toNat 0⟩) := rfl

/-- CREATE_SESSION gives an id that is not in use. -/
theorem tidy_created (hs : Tidy s) {owner : ClientOwner4} {r : ClientRecord}
    (hclient : s.clients owner = some r) : Tidy (created s owner r) := by
  rw [created_eq]
  have hclient' : Tidy (s.setClient owner { r with sequence := r.sequence + 1 }) :=
    tidy_setClient hs hclient rfl
  refine tidy_setSession (tidy_made hclient') ⟨s.made, Nat.lt_succ_self _, rfl⟩ ?_
  intro r' hr'
  obtain rfl := Option.some.inj hr'
  exact known_setClient _ (Option.isSome_iff_exists.mpr ⟨r, hclient⟩)

/-- CREATE_SESSION touches the owner's client and a session that is new. -/
theorem frame_created {n : Nat} (hs : Tidy s) (hids : DistinctIds e n) (hmade : s.made < n)
    {owner : ClientOwner4} (ho : mountOf owner = i) (r : ClientRecord) :
    Frame mountOf i s (created s owner r) := by
  rw [created_eq]
  refine ((frame_setClient s ho _).trans (frame_made _)).trans (frame_setSession _ ?_ ?_)
  · -- No session is overwritten.
    intro r' hr'
    have hnone := hs.sessions_next hids hmade
    rw [show s.sessions (e.sessionId s.made) = some r' from hr'] at hnone
    cases hnone
  · intro r' hr'
    obtain rfl := Option.some.inj hr'
    exact ho

/-- SEQUENCE takes no id into use. -/
theorem tidy_entered (hs : Tidy s) {a : Sequence4args} {r : SessionRecord}
    (hsession : s.sessions a.saSessionid = some r) : Tidy (entered s a r) := by
  have hset := tidy_setSession hs (hs.sessionId _ r hsession)
    (r := some { r with lastIds := r.lastIds.set a.saSlotid.toNat a.saSequenceid }) fun r' hr' => by
      obtain rfl := Option.some.inj hr'
      exact hs.known _ r hsession
  exact ⟨hset.owner, hset.clientId, hset.sessionId, hset.known⟩

/-- SEQUENCE touches a session of the mount. -/
theorem frame_entered {a : Sequence4args} {r : SessionRecord}
    (hsession : s.sessions a.saSessionid = some r) (hr : mountOf r.owner = i) :
    Frame mountOf i s (entered s a r) := by
  have hset : Frame mountOf i s (s.setSession a.saSessionid
      (some { r with lastIds := r.lastIds.set a.saSlotid.toNat a.saSequenceid })) := by
    refine frame_setSession s (fun r' hr' => ?_) (fun r' hr' => ?_)
    · obtain rfl := Option.some.inj (hsession.symm.trans hr')
      exact hr
    · obtain rfl := Option.some.inj hr'
      exact hr
  exact ⟨hset.clients, hset.sessions, hset.files⟩

/-! ### The operations behind a SEQUENCE -/

/-- From `s` to `s'`, behind a SEQUENCE of the mount. -/
structure Within (mountOf : ClientOwner4 → ι) (i : ι) (s s' : MountServer e) : Prop where
  tidy : Tidy s'
  inCompound : InCompound mountOf i s'
  frame : Frame mountOf i s s'
  sessions : s'.sessions = s.sessions
  made : s'.made = s.made

/-- Nothing has changed inside the compound. -/
theorem within_refl (hs : Tidy s) (hin : InCompound mountOf i s) : Within mountOf i s s :=
  ⟨hs, hin, .refl mountOf i s, rfl, rfl⟩

/-- A record of the owner in session is set inside the compound. -/
theorem within_setClient (hs : Tidy s) (hin : InCompound mountOf i s) {owner : ClientOwner4}
    (howner : s.inSession = some owner) {r : ClientRecord}
    (hid : r.clientId = (s.record owner).clientId) :
    Within mountOf i s (s.setClient owner r) := by
  obtain ⟨ho, hknown⟩ := hin owner howner
  obtain ⟨r', hclient⟩ := Option.isSome_iff_exists.mp hknown
  rw [record_of_some hclient] at hid
  refine ⟨tidy_setClient hs hclient hid, ?_, frame_setClient s ho r, rfl, rfl⟩
  intro owner' howner'
  obtain rfl := Option.some.inj (howner.symm.trans howner')
  exact ⟨ho, known_setClient r hknown⟩

/-- An operation behind SEQUENCE stays with the owner in session. -/
theorem perform_plain (hs : Tidy s) (hin : InCompound mountOf i s) {op : NfsArgOp4}
    (hop : Plain op) : Within mountOf i s (perform s op).2 := by
  rcases plain_cases hop s with heq | ⟨owner, howner, heq⟩ | ⟨files, hfiles, heq⟩
  · rw [heq]
    exact within_refl hs hin
  · rw [heq]
    exact within_setClient hs hin howner rfl
  · rw [heq]
    exact ⟨⟨hs.owner, hs.clientId, hs.sessionId, hs.known⟩, hin,
      ⟨fun _ _ => rfl, fun _ _ _ => Iff.rfl, hfiles⟩, rfl, rfl⟩

/-- So do all the operations behind SEQUENCE. -/
theorem execute_plain {ops : List NfsArgOp4} (hs : Tidy s) (hin : InCompound mountOf i s)
    (hops : ∀ op ∈ ops, Plain op) : Within mountOf i s (execute s ops).2 := by
  induction ops generalizing s with
  | nil => exact within_refl hs hin
  | cons op ops ih =>
      have hop := perform_plain hs hin (hops op List.mem_cons_self)
      by_cases hok : status (perform s op).1 = .ok
      · have hrest := ih hop.tidy hop.inCompound fun op' hop' =>
          hops op' (List.mem_cons_of_mem op hop')
        rw [execute_cons_ok hok]
        exact ⟨hrest.tidy, hrest.inCompound, hop.frame.trans hrest.frame,
          hrest.sessions.trans hop.sessions, hrest.made.trans hop.made⟩
      · rw [execute_cons_err hok]
        exact hop

/-! ### A request -/

/-- Behind SEQUENCE the compound is the owner's. -/
theorem inCompound_entered (hs : Tidy s) {a : Sequence4args} {r : SessionRecord}
    (hsession : s.sessions a.saSessionid = some r) (hr : mountOf r.owner = i) :
    InCompound mountOf i (entered s a r) := by
  intro owner howner
  obtain rfl := Option.some.inj howner
  exact ⟨hr, hs.known _ r hsession⟩

/-- A compound that starts with a SEQUENCE. -/
theorem execute_sequence_eq {r : SessionRecord} {a : Sequence4args}
    (hsession : s.sessions a.saSessionid = some r) (ops : List NfsArgOp4) :
    execute (start s) (.sequence a :: ops)
      = if slotStatus r a = .ok then
          (.sequence ⟨.ok, some (s.files.sequenced a)⟩ :: (execute (entered (start s) a r) ops).1,
            (execute (entered (start s) a r) ops).2)
        else ([.sequence ⟨slotStatus r a, none⟩], start s) := by
  have hperform := sequence_eq (s := start s) hsession
  rw [show (start s).inSession = none from rfl] at hperform
  simp only [Option.isSome_none, Bool.false_eq_true, if_false] at hperform
  by_cases hok : slotStatus r a = .ok
  · rw [if_pos hok] at hperform ⊢
    rw [execute_cons_ok (by rw [hperform]; rfl), hperform]
    rfl
  · rw [if_neg hok] at hperform ⊢
    rw [execute_cons_err (by rw [hperform]; exact hok), hperform]

/-- The state that a compound leaves. -/
theorem serve_state {S : Type} [CompoundServer S] (s : S) (args : Compound4args) :
    (serve s args).2 = (execute (start s) args.argarray).2 := rfl

/-- What a request of the mount leaves. -/
structure Leaves (mountOf : ClientOwner4 → ι) (i : ι) (s s' : MountServer e) : Prop where
  tidy : Tidy s'
  frame : Frame mountOf i s s'
  made : s'.made = s.made ∨ s'.made = s.made + 1

/-- What a compound is executed on. -/
theorem leaves_start (mountOf : ClientOwner4 → ι) (i : ι) (hs : Tidy s) :
    Leaves mountOf i s (start s) where
  tidy := ⟨hs.owner, hs.clientId, hs.sessionId, hs.known⟩
  frame := ⟨fun _ _ => rfl, fun _ _ _ => Iff.rfl, rfl⟩
  made := .inl rfl

/-- A request of one operation. -/
theorem execute_single {S : Type} [CompoundServer S] (s : S) (op : NfsArgOp4) :
    execute s [op] = ([(perform s op).1], (perform s op).2) := by
  simp only [execute, ite_self]

/-- **A request of the mount** leaves alone what belongs to the others. -/
theorem leaves_serve {n : Nat} (hs : Tidy s) (hids : DistinctIds e n) (hmade : s.made < n)
    {args : Compound4args} (hmine : Mine mountOf i s args.argarray) :
    Leaves mountOf i s (serve s args).2 := by
  obtain ⟨htidy, hframe, -⟩ := leaves_start mountOf i hs
  rw [serve_state]
  cases hargs : args.argarray with
  | nil =>
      rw [hargs] at hmine
      cases hmine
  | cons op ops =>
      rw [hargs] at hmine
      cases hmine with
      | exchangeId howner =>
          rw [execute_single, exchangeId_eq]
          exact ⟨tidy_exchanged htidy hids hmade _,
            hframe.trans (frame_exchanged _ howner), .inr rfl⟩
      | createSession howner hclient hid =>
          rw [execute_single, createSession_eq (s := start s)
            (hid ▸ hs.owner _ _ hclient) hclient]
          split
          · exact ⟨tidy_created htidy hclient,
              hframe.trans (frame_created htidy hids hmade howner _), .inr rfl⟩
          · exact leaves_start mountOf i hs
      | destroySession hsession hr =>
          rw [execute_single, destroySession_eq (s := start s) hsession]
          -- The session that ends is one of the mount.
          refine ⟨tidy_setSession htidy (hs.sessionId _ _ hsession) (by simp),
            hframe.trans (frame_setSession _ (fun r' hr' => ?_) (by simp)), .inl rfl⟩
          obtain rfl := Option.some.inj (hsession.symm.trans hr')
          exact hr
      | sequence hsession hr hops =>
          rw [execute_sequence_eq hsession]
          split
          · have hwithin := execute_plain (tidy_entered htidy hsession)
              (inCompound_entered htidy hsession hr) hops
            refine ⟨hwithin.tidy,
              hframe.trans ((frame_entered (s := start s) hsession hr).trans hwithin.frame), ?_⟩
            exact .inl hwithin.made
          · exact leaves_start mountOf i hs

/-! ### A server of the mount's own -/

/-- A server that is set up as `e`, and gives the ids at the places `f`. -/
abbrev ownExport (e : Export Node) (f : Nat → Nat) : Export Node :=
  { e with
    clientId := fun n => e.clientId (f n)
    sessionId := fun n => e.sessionId (f n) }

/-- The server `o` has what belongs to the mount `i` on the server `s`. -/
structure Beside (mountOf : ClientOwner4 → ι) (i : ι) (s : MountServer e)
    (o : MountServer (ownExport e f)) : Prop where
  clients : ∀ owner, mountOf owner = i → o.clients owner = s.clients owner
  owner : ∀ owner r, mountOf owner = i → s.clients owner = some r →
    o.owners r.clientId = some owner
  sessions : ∀ sid r, s.sessions sid = some r → mountOf r.owner = i → o.sessions sid = some r
  files : start o.files = start s.files

variable {o : MountServer (ownExport e f)}

/-- A server that the others used in between. -/
theorem Beside.frame {j : ι} (h : Beside mountOf j s o) (hframe : Frame mountOf i s s')
    (hj : j ≠ i) : Beside mountOf j s' o where
  clients owner ho := by
    rw [h.clients owner ho, hframe.clients owner (by rw [ho]; exact hj)]
  owner owner r ho hr := by
    rw [hframe.clients owner (by rw [ho]; exact hj)] at hr
    exact h.owner owner r ho hr
  sessions sid r hr ho := by
    rw [hframe.sessions sid r (by rw [ho]; exact hj)] at hr
    exact h.sessions sid r hr ho
  files := h.files.trans hframe.files.symm

/-- A compound starts with the servers beside each other. -/
theorem beside_start (h : Beside mountOf i s o) : Beside mountOf i (start s) (start o) :=
  ⟨h.clients, h.owner, h.sessions, h.files⟩

/-- The ids that the shared server gives to others leave the servers beside each other. -/
theorem beside_made (h : Beside mountOf i s o) :
    Beside mountOf i { s with made := s.made + 1 } { o with made := o.made + 1 } :=
  ⟨h.clients, h.owner, h.sessions, h.files⟩

/-- The same record of the same owner is set on both. -/
theorem beside_setClient (h : Beside mountOf i s o) {owner : ClientOwner4} {r : ClientRecord}
    (howner : o.owners r.clientId = some owner) :
    Beside mountOf i (s.setClient owner r) (o.setClient owner r) where
  clients owner' ho := update_congr (h.clients owner' ho)
  owner owner' r' ho hr := by
    rcases clients_setClient hr with ⟨rfl, rfl⟩ | ⟨-, hold⟩
    · exact howner
    · exact h.owner owner' r' ho hold
  sessions := h.sessions
  files := h.files

/-- The same session is set on both. -/
theorem beside_setSession (h : Beside mountOf i s o) (sid : SessionId4)
    (r : Option SessionRecord) : Beside mountOf i (s.setSession sid r) (o.setSession sid r) where
  clients := h.clients
  owner := h.owner
  sessions sid' r' hr ho := by
    show Function.update o.sessions sid r sid' = some r'
    rcases update_eq_some hr with ⟨rfl, hnew⟩ | ⟨hne, hold⟩
    · rw [Function.update_self]
      exact hnew
    · rw [Function.update_of_ne hne]
      exact h.sessions sid' r' hold ho
  files := h.files

/-- The two servers have the same record of an owner, also when the id is a new one. -/
theorem Beside.record (h : Beside mountOf i s o) {owner : ClientOwner4}
    (ho : mountOf owner = i) (hf : f o.made = s.made) : o.record owner = s.record owner := by
  have hid : (ownExport e f).clientId o.made = e.clientId s.made := congrArg e.clientId hf
  rw [MountServer.record, MountServer.record, h.clients owner ho, hid]

/-- EXCHANGE_ID takes the two servers the same step. -/
theorem beside_exchanged {n : Nat} (hs : Tidy s) (hids : DistinctIds e n) (hmade : s.made < n)
    (h : Beside mountOf i s o) {owner : ClientOwner4} (ho : mountOf owner = i)
    (hf : f o.made = s.made) : Beside mountOf i (exchanged s owner) (exchanged o owner) where
  clients owner' ho' := by
    show Function.update o.clients owner (some (o.record owner)) owner'
      = Function.update s.clients owner (some (s.record owner)) owner'
    rw [h.record ho hf]
    exact update_congr (h.clients owner' ho')
  owner owner' r ho' hr := by
    show Function.update o.owners (o.record owner).clientId (some owner) r.clientId = some owner'
    rw [h.record ho hf]
    rcases clients_setClient hr with ⟨rfl, rfl⟩ | ⟨hne, hold⟩
    · rw [Function.update_self]
    · rw [Function.update_of_ne (hs.clientId_ne hids hmade hne hold)]
      exact h.owner owner' r ho' hold
  sessions := h.sessions
  files := h.files

/-- CREATE_SESSION takes the two servers the same step. -/
theorem beside_created (h : Beside mountOf i s o) {owner : ClientOwner4} {r : ClientRecord}
    (ho : mountOf owner = i) (hclient : s.clients owner = some r) (hf : f o.made = s.made) :
    Beside mountOf i (created s owner r) (created o owner r) := by
  have hset := beside_setClient (r := { r with sequence := r.sequence + 1 }) h
    (h.owner owner r ho hclient)
  have hsession := beside_setSession (beside_made hset) (e.sessionId s.made)
    (some ⟨owner, List.replicate e.fore.caMaxrequests.toNat 0⟩)
  rw [created_eq, created_eq]
  -- The two give the same session id.
  show Beside mountOf i _ (MountServer.setSession _ (e.sessionId (f o.made)) _)
  rw [hf]
  exact hsession

/-! ### The same answers -/

/-- Two servers in a compound of one session. -/
structure Together (mountOf : ClientOwner4 → ι) (i : ι) (s : MountServer e)
    (o : MountServer (ownExport e f)) : Prop where
  beside : Beside mountOf i s o
  inSession : o.inSession = s.inSession
  files : o.files = s.files

/-- SEQUENCE takes the two servers into the same session. -/
theorem together_entered (h : Beside mountOf i s o) (hfiles : o.files = s.files)
    (a : Sequence4args) (r : SessionRecord) :
    Together mountOf i (entered s a r) (entered o a r) := by
  have hset := beside_setSession h a.saSessionid
    (some { r with lastIds := r.lastIds.set a.saSlotid.toNat a.saSequenceid })
  exact ⟨⟨hset.clients, hset.owner, hset.sessions, hset.files⟩, rfl, hfiles⟩

/-- Operations on files answer by the files alone. -/
theorem onFiles_together (h : Together mountOf i s o) (op : NfsArgOp4) :
    (s.onFiles op).1 = (o.onFiles op).1 ∧
      Together mountOf i (s.onFiles op).2 (o.onFiles op).2 ∧
      (o.onFiles op).2.made = o.made := by
  rw [MountServer.onFiles, MountServer.onFiles, h.inSession]
  cases s.inSession with
  | none => exact ⟨rfl, h, rfl⟩
  | some owner =>
      have hperform : o.files.perform op = s.files.perform op := by rw [h.files]
      refine ⟨congrArg Prod.fst hperform.symm, ⟨⟨h.beside.clients, h.beside.owner,
        h.beside.sessions, ?_⟩, rfl, congrArg Prod.snd hperform⟩, rfl⟩
      exact congrArg (fun r => start r.2) hperform

/-- RECLAIM_COMPLETE answers by the record of the owner in session. -/
theorem reclaimComplete_together (hin : InCompound mountOf i s) (h : Together mountOf i s o) :
    s.reclaimComplete.1 = o.reclaimComplete.1 ∧
      Together mountOf i s.reclaimComplete.2 o.reclaimComplete.2 ∧
      o.reclaimComplete.2.made = o.made := by
  cases howner : s.inSession with
  | none =>
      have hs : s.reclaimComplete = (.reclaimComplete .opNotInSession, s) := by
        simp only [MountServer.reclaimComplete, howner]
      have ho : o.reclaimComplete = (.reclaimComplete .opNotInSession, o) := by
        simp only [MountServer.reclaimComplete, h.inSession, howner]
      rw [hs, ho]
      exact ⟨rfl, h, rfl⟩
  | some owner =>
      obtain ⟨hmount, hknown⟩ := hin owner howner
      obtain ⟨r, hclient⟩ := Option.isSome_iff_exists.mp hknown
      have hclient' : o.clients owner = some r := (h.beside.clients owner hmount).trans hclient
      simp only [MountServer.reclaimComplete, h.inSession, howner, record_of_some hclient,
        record_of_some hclient']
      split
      · exact ⟨rfl, h, rfl⟩
      · have hset := beside_setClient (r := { r with reclaimed := true }) h.beside
          (h.beside.owner owner r hmount hclient)
        exact ⟨rfl, ⟨hset, h.inSession, h.files⟩, rfl⟩

/-- An operation behind SEQUENCE has the same answer on both servers. -/
theorem perform_together (hin : InCompound mountOf i s) (h : Together mountOf i s o)
    {op : NfsArgOp4} (hop : Plain op) :
    (perform s op).1 = (perform o op).1 ∧
      Together mountOf i (perform s op).2 (perform o op).2 ∧ (perform o op).2.made = o.made := by
  cases op with
  | reclaimComplete a => exact reclaimComplete_together hin h
  | putRootFh => exact onFiles_together h .putRootFh
  | lookup a => exact onFiles_together h (.lookup a)
  | getFh => exact onFiles_together h .getFh
  | _ => exact hop.elim

/-- So do all the operations behind SEQUENCE. -/
theorem execute_together {ops : List NfsArgOp4} (hs : Tidy s) (hin : InCompound mountOf i s)
    (h : Together mountOf i s o) (hops : ∀ op ∈ ops, Plain op) :
    (execute s ops).1 = (execute o ops).1 ∧
      Together mountOf i (execute s ops).2 (execute o ops).2 ∧
      (execute o ops).2.made = o.made := by
  induction ops generalizing s o with
  | nil => exact ⟨rfl, h, rfl⟩
  | cons op ops ih =>
      have hop := hops op List.mem_cons_self
      have hwithin := perform_plain hs hin hop
      obtain ⟨heq, htogether, hmade⟩ := perform_together hin h hop
      by_cases hok : status (perform s op).1 = .ok
      · obtain ⟨heq', htogether', hmade'⟩ := ih hwithin.tidy hwithin.inCompound htogether
          fun op' hop' => hops op' (List.mem_cons_of_mem op hop')
        rw [execute_cons_ok hok, execute_cons_ok (by rw [← heq]; exact hok)]
        exact ⟨by rw [heq, heq'], htogether', hmade'.trans hmade⟩
      · -- Both stop at this operation.
        rw [execute_cons_err hok, execute_cons_err (by rw [← heq]; exact hok)]
        exact ⟨by rw [heq], htogether, hmade⟩

/-- The two servers return the same to a request, and go on side by side. They give an id or
neither of them does. -/
structure SameAnswer (mountOf : ClientOwner4 → ι) (i : ι) (s : MountServer e)
    (o : MountServer (ownExport e f)) (ops : List NfsArgOp4) : Prop where
  results : (execute (start s) ops).1 = (execute (start o) ops).1
  beside : Beside mountOf i (execute (start s) ops).2 (execute (start o) ops).2
  made : (execute (start o) ops).2.made + s.made = o.made + (execute (start s) ops).2.made

/-- Requests whose results are the same have the same answer. -/
theorem sameAnswer_of_execute {ops : List NfsArgOp4} {results : List NfsResOp4}
    {o' : MountServer (ownExport e f)} (hs : execute (start s) ops = (results, s'))
    (ho : execute (start o) ops = (results, o')) (hbeside : Beside mountOf i s' o')
    (hmade : o'.made + s.made = o.made + s'.made) : SameAnswer mountOf i s o ops where
  results := by rw [hs, ho]
  beside := by
    rw [hs, ho]
    exact hbeside
  made := by
    rw [hs, ho]
    exact hmade

/-- An answer that does not change the two servers. -/
theorem sameAnswer_start (h : Beside mountOf i s o) {ops : List NfsArgOp4}
    {results : List NfsResOp4} (hs : execute (start s) ops = (results, start s))
    (ho : execute (start o) ops = (results, start o)) : SameAnswer mountOf i s o ops :=
  sameAnswer_of_execute hs ho (beside_start h) rfl

/-- **The others do not show.** The server answers a request of the mount as one of the mount's
own does, if the two give the same id where they give one. -/
theorem sameAnswer_mine {n : Nat} (hs : Tidy s) (hids : DistinctIds e n) (hmade : s.made < n)
    (h : Beside mountOf i s o) {ops : List NfsArgOp4} (hmine : Mine mountOf i s ops)
    (hf : (execute (start s) ops).2.made ≠ s.made → f o.made = s.made) :
    SameAnswer mountOf i s o ops := by
  have htidy : Tidy (start s) := (leaves_start mountOf i hs).tidy
  have hstart : Beside mountOf i (start s) (start o) := beside_start h
  cases hmine with
  | @exchangeId a howner =>
      rw [execute_single, exchangeId_eq] at hf
      -- The one id that the request makes is the one that the other server renames to.
      have hid : f o.made = s.made := hf (Nat.succ_ne_self _)
      have hbody : exchangeBody (start o) a.eiaClientowner
          = exchangeBody (start s) a.eiaClientowner := by
        rw [exchangeBody, exchangeBody, hstart.record howner hid]
      refine sameAnswer_of_execute (by rw [execute_single, exchangeId_eq])
        (by rw [execute_single, exchangeId_eq, hbody])
        (beside_exchanged htidy hids hmade hstart howner hid) ?_
      show o.made + 1 + s.made = o.made + (s.made + 1)
      omega
  | @createSession a owner r howner hclient hid =>
      -- Both find the client, by its id, and compare the sequence with its own.
      have hperform := createSession_eq (s := start s) (hid ▸ hs.owner _ _ hclient) hclient
      have hperform' := createSession_eq (s := start o) (a := a)
        (hid ▸ h.owner _ _ howner hclient) ((h.clients owner howner).trans hclient)
      by_cases hseq : a.csaSequence = r.sequence
      · rw [if_pos hseq] at hperform hperform'
        rw [execute_single, hperform] at hf
        have hmade' : f o.made = s.made := hf (Nat.succ_ne_self _)
        have hbody : createBody (start o) a.csaSequence = createBody (start s) a.csaSequence := by
          have hsid : (ownExport e f).sessionId o.made = e.sessionId s.made :=
            congrArg e.sessionId hmade'
          show (⟨(ownExport e f).sessionId o.made, _, _, _, _⟩ : CreateSession4resok) = _
          rw [hsid]
          rfl
        refine sameAnswer_of_execute (by rw [execute_single, hperform])
          (by rw [execute_single, hperform', hbody])
          (beside_created hstart howner hclient hmade') ?_
        show o.made + 1 + s.made = o.made + (s.made + 1)
        omega
      · -- A sequence number that is not the next one: both refuse it.
        rw [if_neg hseq] at hperform hperform'
        exact sameAnswer_start h (by rw [execute_single, hperform])
          (by rw [execute_single, hperform'])
  | @destroySession a r hsession hr =>
      -- The session of the mount is in both tables, and is taken out of both.
      have hperform := destroySession_eq (s := start s) hsession
      have hperform' := destroySession_eq (s := start o) (h.sessions _ r hsession hr)
      exact sameAnswer_of_execute (by rw [execute_single, hperform])
        (by rw [execute_single, hperform']) (beside_setSession hstart _ none) rfl
  | @sequence a r ops hsession hr hops =>
      have hexecute := execute_sequence_eq hsession ops
      have hexecute' := execute_sequence_eq (h.sessions _ r hsession hr) ops
      by_cases hok : slotStatus r a = .ok
      · rw [if_pos hok] at hexecute hexecute'
        -- The operations behind the SEQUENCE run in the session, and make no ids.
        obtain ⟨hresults, htogether, hmade'⟩ := execute_together
          (tidy_entered htidy hsession) (inCompound_entered htidy hsession hr)
          (together_entered hstart h.files a r) hops
        have hwithin := execute_plain (tidy_entered htidy hsession)
          (inCompound_entered htidy hsession hr) hops
        have hsequenced : o.files.sequenced = s.files.sequenced := by
          show (start o.files).sequenced = (start s.files).sequenced
          rw [h.files]
        rw [← hresults, hsequenced] at hexecute'
        refine sameAnswer_of_execute hexecute hexecute' htogether.beside ?_
        rw [hmade', hwithin.made]
        rfl
      · -- The session refuses the slot or the sequence id.
        rw [if_neg hok] at hexecute hexecute'
        exact sameAnswer_start h hexecute hexecute'

/-- The replies are the same. -/
theorem SameAnswer.reply {args : Compound4args} (h : SameAnswer mountOf i s o args.argarray) :
    (serve s args).1 = (serve o args).1 := by
  rw [serve_of_execute (Prod.ext rfl rfl), serve_of_execute (Prod.ext rfl rfl), h.results]

end NfsMount.Mount
