import NfsMount.Proofs.Causality
import NfsMount.Proofs.Conversation
import NfsMount.Proofs.Isolation

/-!
# `NfsMount.Proofs.Sharing`: mounts that share a server do not disturb each other

Each party keeps to the protocol, so its requests name only what the server gave to it
(`mine_of_allows`, by what the observer of `Conversation` saw). By `Isolation` the server answers
them as a server of the party's own does. `run_parties` carries both over a run.

`Replay` gives a party the answers of its turns. `follows` is the relation to a server of its own
that gives the same ones, and with it the calls return what `Mounted` says.
-/

set_option autoImplicit false

namespace NfsMount.Mount

open NfsMount.Lib NfsMount.XdrCodec NfsMount.Nfs4Types NfsMount.OncRpc NfsMount.Nfs4Client
  NfsMount.Server CompoundServer

variable {Node ι : Type} {e : Export Node} {f : Nat → Nat} {mountOf : ClientOwner4 → ι} {i : ι}
  {s s' : MountServer e} {conv : Conversation}

/-! ### What a party names -/

/-- What the party saw last belongs to it on the server. -/
structure Serves (mountOf : ClientOwner4 → ι) (i : ι) (conv : Conversation) (s : MountServer e) :
    Prop where
  exchanged : ∀ ex, conv.exchanged = some ex →
    ∃ owner r, mountOf owner = i ∧ s.clients owner = some r ∧ r.clientId = ex.eirClientid
  held : ∀ h, conv.held = some h →
    ∃ r, s.sessions h.sessionId = some r ∧ mountOf r.owner = i

/-- Before its first turn a mount is served nothing. -/
theorem serves_start (mountOf : ClientOwner4 → ι) (i : ι) (s : MountServer e) :
    Serves mountOf i .start s where
  exchanged ex h := by cases h
  held h heq := by cases heq

/-- Behind another request than an EXCHANGE_ID. -/
theorem serves_of_held (hnone : conv.exchanged = none) (hheld : ∀ h, conv.held = some h →
    ∃ r, s.sessions h.sessionId = some r ∧ mountOf r.owner = i) : Serves mountOf i conv s where
  exchanged ex hex := by
    rw [hnone] at hex
    cases hex
  held := hheld

/-- A server that the others used in between. -/
theorem Serves.frame {j : ι} (h : Serves mountOf j conv s) (hframe : Frame mountOf i s s')
    (hj : j ≠ i) : Serves mountOf j conv s' where
  exchanged ex hex := by
    obtain ⟨owner, r, ho, hclient, hid⟩ := h.exchanged ex hex
    refine ⟨owner, r, ho, ?_, hid⟩
    rw [hframe.clients owner (by rw [ho]; exact hj)]
    exact hclient
  held held hheld := by
    obtain ⟨r, hsession, hr⟩ := h.held held hheld
    exact ⟨r, (hframe.sessions _ r (by rw [hr]; exact hj)).mpr hsession, hr⟩

/-- The lookups of a path are operations behind SEQUENCE. -/
theorem plain_of_isLookups {ops : List NfsArgOp4} (h : isLookups ops = true) :
    ∀ op ∈ ops, Plain op := by
  induction ops with
  | nil => exact List.forall_mem_nil _
  | cons op ops ih =>
      rw [List.forall_mem_cons]
      cases op with
      | lookup a => exact ⟨trivial, ih h⟩
      | getFh =>
          cases ops with
          | nil => exact ⟨trivial, List.forall_mem_nil _⟩
          | cons op ops => cases h
      | _ => cases h

/-- The walk of a path is made of operations behind SEQUENCE. -/
theorem plain_of_isWalk {ops : List NfsArgOp4} (h : isWalk ops = true) :
    ∀ op ∈ ops, Plain op := by
  cases ops with
  | nil => cases h
  | cons op ops =>
      rw [List.forall_mem_cons]
      cases op with
      | putRootFh => exact ⟨trivial, plain_of_isLookups h⟩
      | _ => cases h

/-- The session of a SEQUENCE that is allowed. -/
theorem session_of_isNext (hserves : Serves mountOf i conv s) {a : Sequence4args} {h : Held}
    (hheld : conv.held = some h) (hnext : h.isNext a = true) :
    ∃ r, s.sessions a.saSessionid = some r ∧ mountOf r.owner = i := by
  have hsid : a.saSessionid = h.sessionId := by
    simp only [Held.isNext, Bool.and_eq_true, decide_eq_true_eq] at hnext
    exact hnext.1.1.1
  rw [hsid]
  exact hserves.held h hheld

/-- **A request that is allowed** names only what belongs to the party. -/
theorem mine_of_allows {ops : List NfsArgOp4} (hallows : conv.allows ops = true)
    (hserves : Serves mountOf i conv s)
    (howner : ∀ a, ops = [.exchangeId a] → mountOf a.eiaClientowner = i) :
    Mine mountOf i s ops := by
  unfold Conversation.allows at hallows
  split at hallows
  · exact .exchangeId (howner _ rfl)
  · -- Behind an EXCHANGE_ID: the client id is the one that the server gave the owner.
    obtain ⟨ex, hex, hbody⟩ := (Option.any_eq_true _ _).mp hallows
    simp only [Bool.and_eq_true, decide_eq_true_eq] at hbody
    obtain ⟨owner, r, ho, hclient, hid⟩ := hserves.exchanged ex hex
    exact .createSession ho hclient (hid.trans hbody.1.symm)
  · obtain ⟨h, hheld, hbody⟩ := (Option.any_eq_true _ _).mp hallows
    rw [decide_eq_true_eq] at hbody
    obtain ⟨r, hsession, hr⟩ := hserves.held h hheld
    exact .destroySession (hbody ▸ hsession) hr
  · obtain ⟨h, hheld, hbody⟩ := (Option.any_eq_true _ _).mp hallows
    rw [Bool.and_eq_true] at hbody
    obtain ⟨r, hsession, hr⟩ := session_of_isNext hserves hheld hbody.1
    refine .sequence hsession hr fun op hop => ?_
    obtain rfl := List.mem_singleton.mp hop
    trivial
  · obtain ⟨h, hheld, hbody⟩ := (Option.any_eq_true _ _).mp hallows
    simp only [Bool.and_eq_true] at hbody
    obtain ⟨r, hsession, hr⟩ := session_of_isNext hserves hheld hbody.1.1
    exact .sequence hsession hr (plain_of_isWalk hbody.2)
  · cases hallows

/-! ### What the answer leads to -/

/-- The sessions that a request leaves, if it destroys none. -/
def Stay (s s' : MountServer e) : Prop :=
  ∀ sid r, s.sessions sid = some r → ∃ r', s'.sessions sid = some r' ∧ r'.owner = r.owner

/-- A session that is held stays on the server, as its own. -/
theorem Serves.held_stay (hserves : Serves mountOf i conv s) (hstay : Stay s s') :
    ∀ h, conv.held = some h → ∃ r, s'.sessions h.sessionId = some r ∧ mountOf r.owner = i := by
  intro h hheld
  obtain ⟨r, hsession, hr⟩ := hserves.held h hheld
  obtain ⟨r', hsession', hr'⟩ := hstay _ r hsession
  exact ⟨r', hsession', by rw [hr', hr]⟩

/-- SEQUENCE keeps the sessions. -/
theorem stay_entered (s : MountServer e) {a : Sequence4args} {r : SessionRecord}
    (hsession : s.sessions a.saSessionid = some r) : Stay s (entered s a r) := by
  intro sid r' hsession'
  by_cases hsid : sid = a.saSessionid
  · subst hsid
    obtain rfl := Option.some.inj (hsession.symm.trans hsession')
    exact ⟨_, sessions_entered s a r, rfl⟩
  · refine ⟨r', ?_, rfl⟩
    show Function.update s.sessions a.saSessionid _ sid = some r'
    rw [Function.update_of_ne hsid, hsession']

/-- The reply to a compound of one operation. -/
theorem serve_eq_single {S : Type} [CompoundServer S] (s : S) {args : Compound4args}
    {op : NfsArgOp4} (hargs : args.argarray = [op]) {r : NfsResOp4} {s' : S}
    (hperform : perform (start s) op = (r, s')) :
    serve s args = (⟨status r, args.tag, [r]⟩, s') := by
  rw [serve_single s hargs, hperform]

/-- **What a party sees of its request** belongs to it. -/
theorem serves_after (hs : Tidy s)
    (hserves : Serves mountOf i conv s) {args : Compound4args}
    (hmine : Mine mountOf i s args.argarray) :
    Serves mountOf i (conv.after args.argarray (.ok (serve s args).1)) (serve s args).2 := by
  have htidy : Tidy (start s) := (leaves_start mountOf i hs).tidy
  generalize hops : args.argarray = ops at hmine
  cases hmine with
  | @exchangeId a howner =>
      have hserve := serve_eq_single s hops (exchangeId_eq (start s) a)
      rw [hserve]
      refine ⟨fun ex hex => ?_, hserves.held⟩
      have hbody : exchangeResult ⟨.ok, args.tag,
          [.exchangeId ⟨.ok, some (exchangeBody (start s) a.eiaClientowner)⟩]⟩
            = .ok (exchangeBody (start s) a.eiaClientowner) := exchangeResult_single.mpr rfl
      have hex' : Conversation.valueOf (.ok (exchangeBody (start s) a.eiaClientowner)) = some ex :=
        (congrArg Conversation.valueOf hbody).symm.trans hex
      obtain rfl := Option.some.inj hex'
      exact ⟨a.eiaClientowner, (start s).record a.eiaClientowner, howner,
        Function.update_self .., rfl⟩
  | @createSession a owner r howner hclient hid =>
      have hperform := createSession_eq (s := start s) (hid ▸ hs.owner _ _ hclient) hclient
      by_cases hseq : a.csaSequence = r.sequence
      · rw [if_pos hseq] at hperform
        have hserve := serve_eq_single s hops hperform
        have hbody : createResult (serve s args).1 = .ok (createBody (start s) a.csaSequence) := by
          rw [hserve]
          exact createResult_single.mpr rfl
        rw [after_createSession, show (Outcome.ok (serve s args).1 >>= createResult)
          = createResult (serve s args).1 from rfl, hbody, hserve]
        refine serves_of_held rfl fun h hheld => ?_
        obtain rfl := Option.some.inj hheld
        exact ⟨_, Function.update_self .., howner⟩
      · rw [if_neg hseq] at hperform
        rw [serve_eq_single s hops hperform, after_createSession]
        exact serves_of_held rfl hserves.held
  | @destroySession a r hsession hr =>
      rw [serve_eq_single s hops (destroySession_eq (s := start s) hsession)]
      refine serves_of_held rfl fun h hheld => ?_
      cases hheld
  | @sequence a r ops hsession hr hops' =>
      -- No session is created or destroyed behind a SEQUENCE.
      have hstay : Stay s (serve s args).2 := by
        rw [serve_state, hops, execute_sequence_eq hsession]
        split
        · have hwithin := execute_plain (tidy_entered htidy hsession)
            (inCompound_entered htidy hsession hr) hops'
          intro sid r' hr'
          rw [hwithin.sessions]
          exact stay_entered (start s) hsession sid r' hr'
        · exact fun sid r' hr' => ⟨r', hr', rfl⟩
      refine serves_of_held rfl fun h hheld => ?_
      obtain ⟨h', hheld', rfl⟩ := Option.map_eq_some_iff.mp hheld
      exact hserves.held_stay hstay h' hheld'

/-! ### One turn -/

/-- The response of a server that made this reply. -/
def response (res : Compound4res) : Except RpcError RpcResponse :=
  match (encode res : Encoded UInt8 XdrError) with
  | .ok bytes => .ok { xid := 0, verf := .none, status := .success ⟨bytes⟩ }
  | .error _ => .ok { xid := 0, verf := .none, status := .systemError }

section Turns

variable {S : Type} [CompoundServer S] {turn : Turn} {args : Compound4args} {auth : AuthFlavor}

/-- A server that is called serves the request. -/
theorem call_serve (s : S) {c : CallArgs} (henc : encode args = .ok c.args) :
    RpcTransport.call (Served.mk s) c = (response (serve s args).1, ⟨(serve s args).2⟩) := by
  have hread := read_request henc []
  rw [List.append_nil] at hread
  simp only [RpcTransport.call, hread, response]
  cases (encode (serve s args).1 : Encoded UInt8 XdrError) <;> rfl

/-- A turn on a server. -/
theorem take_served {s : S} {t : Served S} (henc : encode args = .ok turn.call.args)
    (h : take (Served.mk s) turn = some t) :
    turn.answer = response (serve s args).1 ∧ t = ⟨(serve s args).2⟩ := by
  rw [take, call_serve s henc] at h
  dsimp only at h
  split at h
  · exact ⟨Eq.symm ‹_›, (Option.some.inj h).symm⟩
  · cases h

/-- A server that makes the same reply gives the same answer. -/
theorem take_of_reply {s : S} (henc : encode args = .ok turn.call.args)
    (hanswer : turn.answer = response (serve s args).1) :
    take (Served.mk s) turn = some ⟨(serve s args).2⟩ := by
  rw [take, call_serve s henc]
  exact if_pos hanswer.symm

/-- A server takes one more turn, if it makes the reply of the turn. -/
theorem run_take_concat {t : Served S} {s : S} {turns : List Turn}
    (hrun : run take t turns = some ⟨s⟩) (henc : encode args = .ok turn.call.args)
    (hanswer : turn.answer = response (serve s args).1) :
    run take t (turns ++ [turn]) = some ⟨(serve s args).2⟩ :=
  run_append.mpr ⟨_, hrun, run_cons_eq_some.mpr ⟨_, take_of_reply henc hanswer, rfl⟩⟩

/-- The client reads the reply. -/
theorem readResponse_response (s : S) {c : CallArgs} (henc : encode args = .ok c.args) :
    readResponse (response (serve s args).1) = .ok (serve s args).1 := by
  obtain ⟨answer, data, hcall, hstatus, hdec⟩ := call_served s henc
  rw [call_serve s henc, Prod.mk.injEq] at hcall
  rw [hcall.1]
  simp only [readResponse, hstatus, hdec]

/-- What the observer makes of a turn. -/
theorem next_sent {conv' : Conversation} (henc : encode args = .ok turn.call.args)
    (h : Conversation.next auth conv turn = some conv') :
    conv.allows args.argarray = true ∧
      conv' = conv.after args.argarray (readResponse turn.answer) := by
  have hread := read_request henc []
  rw [List.append_nil] at hread
  simp only [Conversation.next, hread] at h
  split at h
  · rename_i hcond
    exact ⟨hcond.2.2, (Option.some.inj h).symm⟩
  · cases h

end Turns

/-- A request of the party, which the turn carries. -/
structure Sent (mountOf : ClientOwner4 → ι) (i : ι) (turn : Turn) (args : Compound4args) :
    Prop where
  encodes : encode args = .ok turn.call.args
  owner : ∀ a, args.argarray = [.exchangeId a] → mountOf a.eiaClientowner = i

/-- A new server of the party's own. -/
def ownServer (files : FileServer e.tree) (f : Nat → Nat) : MountServer (ownExport e f) :=
  MountServer.new files

/-- The party is served, and a server of its own that gives the ids at the places `given` took
the same turns. -/
structure OwnView (files : FileServer e.tree) (auth : AuthFlavor) (mountOf : ClientOwner4 → ι)
    (i : ι) (turns : List Turn) (s : MountServer e) : Prop where
  serves : ∃ conv, run (Conversation.next auth) .start turns = some conv ∧
    Serves mountOf i conv s
  own : ∃ given : List Nat, ∀ f : Nat → Nat, (∀ k n, given[k]? = some n → f k = n) →
    ∃ o : MountServer (ownExport e f),
      run take (Served.mk (ownServer files f)) turns = some ⟨o⟩ ∧
      Beside mountOf i s o ∧ o.made = given.length

section Views

variable {files : FileServer e.tree} {auth : AuthFlavor} {turns : List Turn}

/-- Before any turn a mount sees a new server. -/
theorem ownView_nil (files : FileServer e.tree) (auth : AuthFlavor)
    (mountOf : ClientOwner4 → ι) (i : ι) :
    OwnView files auth mountOf i [] (MountServer.new files) where
  serves := ⟨.start, rfl, serves_start mountOf i _⟩
  own := by
    refine ⟨[], fun f _ => ⟨ownServer files f, rfl, ⟨fun _ _ => rfl, ?_, ?_, rfl⟩, rfl⟩⟩
    · intro owner r _ hr
      cases hr
    · intro sid r hr
      cases hr

/-- A turn of another mount does not change what a mount sees. -/
theorem OwnView.frame {j : ι} (h : OwnView files auth mountOf j turns s)
    (hframe : Frame mountOf i s s') (hj : j ≠ i) : OwnView files auth mountOf j turns s' where
  serves := by
    obtain ⟨conv, hconv, hserves⟩ := h.serves
    exact ⟨conv, hconv, hserves.frame hframe hj⟩
  own := by
    obtain ⟨given, hgiven⟩ := h.own
    refine ⟨given, fun f hf => ?_⟩
    obtain ⟨o, ho, hbeside, hmade⟩ := hgiven f hf
    exact ⟨o, ho, hbeside.frame hframe hj, hmade⟩

/-- **A turn of the party.** -/
theorem OwnView.turn {n : Nat} {turn : Turn} {args : Compound4args} (hs : Tidy s)
    (hids : DistinctIds e n) (hmade : s.made < n)
    (h : OwnView files auth mountOf i turns s) (hsent : Sent mountOf i turn args)
    (hnext : (run (Conversation.next auth) .start (turns ++ [turn])).isSome)
    (hanswer : turn.answer = response (serve s args).1) :
    Mine mountOf i s args.argarray ∧
      OwnView files auth mountOf i (turns ++ [turn]) (serve s args).2 := by
  -- The observer accepts the turn, so its request is allowed.
  obtain ⟨conv, hconv, hserves⟩ := h.serves
  obtain ⟨conv', hconv'⟩ := Option.isSome_iff_exists.mp hnext
  obtain ⟨conv₁, hconv₁, hlast⟩ := run_append.mp hconv'
  obtain rfl := Option.some.inj (hconv.symm.trans hconv₁)
  obtain ⟨conv₂, hconv₂, hnil⟩ := run_cons_eq_some.mp hlast
  obtain rfl := Option.some.inj hnil
  obtain ⟨hallows, hafter⟩ := next_sent hsent.encodes hconv₂
  have hmine := mine_of_allows hallows hserves hsent.owner
  refine ⟨hmine, ⟨_, hconv', ?_⟩, ?_⟩
  · rw [hafter, hanswer, readResponse_response s hsent.encodes]
    exact serves_after hs hserves hmine
  · obtain ⟨given, hgiven⟩ := h.own
    rcases (leaves_serve hs hids hmade hmine).made with hsame | hnew
    · -- No id was given.
      refine ⟨given, fun f hf => ?_⟩
      obtain ⟨o, ho, hbeside, hlen⟩ := hgiven f hf
      have hreply := sameAnswer_mine hs hids hmade hbeside hmine fun hne => absurd hsame hne
      refine ⟨_, run_take_concat ho hsent.encodes (by rw [hanswer, hreply.reply]),
        hreply.beside, ?_⟩
      have hcount := hreply.made
      rw [← serve_state s, ← serve_state o, hsame] at hcount
      exact (Nat.add_right_cancel hcount).trans hlen
    · -- The next id is the one that the shared server gives.
      refine ⟨given ++ [s.made], fun f hf => ?_⟩
      obtain ⟨o, ho, hbeside, hlen⟩ := hgiven f fun k n hk => hf k n (by
        rw [List.getElem?_append_left (List.getElem?_eq_some_iff.mp hk).1]
        exact hk)
      have hid : f o.made = s.made := hf _ _ (by rw [hlen]; simp)
      have hreply := sameAnswer_mine hs hids hmade hbeside hmine fun _ => hid
      refine ⟨_, run_take_concat ho hsent.encodes (by rw [hanswer, hreply.reply]),
        hreply.beside, ?_⟩
      have hcount := hreply.made
      rw [← serve_state s, ← serve_state o, hnew] at hcount
      rw [List.length_append, List.length_singleton, ← hlen]
      omega

end Views

/-! ### A run of the server -/

/-- A new server has given no ids. -/
theorem tidy_new (files : FileServer e.tree) : Tidy (MountServer.new files : MountServer e) where
  owner owner r hr := by cases hr
  clientId owner r hr := by cases hr
  sessionId sid r hr := by cases hr
  known sid r hr := by cases hr

/-- **Run.** After a run, each party is served, and a server of its own took the same turns. -/
theorem ownView_of_run [DecidableEq ι] {files : FileServer e.tree} (auth : ι → AuthFlavor)
    (mountOf : ClientOwner4 → ι) {turns : List (ι × Turn)} {t : Served (MountServer e)}
    (hids : DistinctIds e turns.length)
    (hrun : run (fun t turn => take t turn.2) (Served.mk (MountServer.new files)) turns = some t)
    (hsent : ∀ i, ∀ turn ∈ partOf i turns, ∃ args, Sent mountOf i turn args)
    (hnext : ∀ i, (run (Conversation.next (auth i)) .start (partOf i turns)).isSome) (i : ι) :
    OwnView files (auth i) mountOf i (partOf i turns) t.state := by
  refine (run_parties (fun events t => Tidy t.state ∧ t.state.made ≤ events.length)
    (fun i turns t => OwnView files (auth i) mountOf i turns t.state) ?_ ⟨tidy_new files, le_rfl⟩
    (fun i => ownView_nil files (auth i) mountOf i) hrun).2 i
  intro events i turn t t' hfirst hInv hOwn htake
  -- A turn of the party `i`: its own view takes it too, and the others keep theirs.
  obtain ⟨htidy, hmade⟩ := hInv
  have hpart := partOf_first i hfirst
  rw [partOf_concat_self] at hpart
  obtain ⟨args, hargs⟩ := hsent i turn (hpart.subset (by simp))
  have hlen : t.state.made < turns.length := by
    have hle := hfirst.length_le
    rw [List.length_append, List.length_singleton] at hle
    omega
  obtain ⟨hanswer, rfl⟩ := take_served (s := t.state) hargs.encodes htake
  have hstart := run_isSome_of_first hpart (hnext i)
  obtain ⟨hmine, hview⟩ := (hOwn i).turn htidy hids hlen hargs hstart hanswer
  have hleaves := leaves_serve htidy hids hlen hmine
  refine ⟨⟨hleaves.tidy, ?_⟩, hview, fun j hj => (hOwn j).frame hleaves.frame hj⟩
  rw [List.length_append, List.length_singleton]
  -- A turn makes one id at most, so there are no more of them than turns.
  rcases hleaves.made with hsame | hnew
  · show (serve t.state args).2.made ≤ _
    omega
  · show (serve t.state args).2.made ≤ _
    omega

/-! ### A party -/

section Parties

variable {turns : List Turn} {auth : AuthFlavor} {m : Build}

/-- A turn is taken where the transport gives its answer. -/
theorem take_eq_some {τ : Type} [RpcTransport τ] {t t' : τ} {turn : Turn}
    (h : take t turn = some t') :
    (RpcTransport.call t turn.call).1 = turn.answer ∧ (RpcTransport.call t turn.call).2 = t' := by
  rw [take] at h
  dsimp only at h
  split at h
  · exact ⟨‹_›, Option.some.inj h⟩
  · cases h

/-- The answers of the turns, and a server on which the turns can be taken. -/
structure Replays {S : Type} [CompoundServer S] (turns : List Turn) (w : Wire Replay)
    (t : Served S) : Prop where
  turns_eq : w.turns ++ w.inner.turns = turns
  rest : (run take t w.inner.turns).isSome

/-- The party left its turns. -/
structure Left (turns : List Turn) (w : Wire Replay) : Prop where
  closed : w.inner.turns = []
  deviates : ¬ w.turns <+: turns

/-- The answers of the turns are those of the server, until the party leaves its turns. -/
theorem simulates_replay {S : Type} [CompoundServer S] (turns : List Turn) :
    Simulates (Replays (S := S) turns) (Left turns) (fun _ => True) where
  call w t c h _ := by
    obtain ⟨hturns, hrest⟩ := h
    cases hnext : w.inner.turns with
    | nil =>
        -- A request behind the last turn.
        right
        rw [hnext, List.append_nil] at hturns
        rw [call_closed w hnext]
        refine ⟨⟨_, rfl⟩, hnext, fun hfirst => ?_⟩
        have hle := hfirst.length_le
        rw [← hturns, List.length_append, List.length_singleton] at hle
        omega
    | cons turn rest =>
        rw [hnext] at hturns hrest
        rw [call_turn hnext]
        by_cases hc : turn.call = c
        · left
          rw [if_pos hc]
          obtain ⟨t', ht'⟩ := Option.isSome_iff_exists.mp hrest
          obtain ⟨t₁, ht₁, hlater⟩ := run_cons_eq_some.mp ht'
          obtain ⟨hanswer, rfl⟩ := take_eq_some ht₁
          rw [hc] at hanswer hlater
          refine ⟨congrArg readResponse hanswer.symm, ?_, ?_⟩
          · rw [List.append_assoc]
            exact hturns
          · exact Option.isSome_iff_exists.mpr ⟨t', hlater⟩
        · -- Another request than that of the turn.
          right
          rw [if_neg hc]
          refine ⟨⟨_, rfl⟩, rfl, fun hfirst => hc ?_⟩
          rw [← hturns, List.prefix_append_right_inj] at hfirst
          obtain ⟨rfl, -⟩ := List.cons_prefix_cons.mp hfirst
          rfl
  broken w c h := by
    rw [call_closed w h.closed]
    refine ⟨⟨_, rfl⟩, h.closed, fun hfirst => h.deviates ?_⟩
    exact (List.prefix_append _ _).trans hfirst

/-- The turns that the calls take carry requests with `P`. -/
theorem simulates_sent {P : CallArgs → Prop} {τ : Type} [RpcTransport τ] :
    Simulates (fun (w w' : Wire τ) => w = w' ∧ ∀ turn ∈ w.turns, P turn.call) (fun _ => False)
      P where
  call w w' c h hc := by
    obtain ⟨rfl, hturns⟩ := h
    refine .inl ⟨rfl, rfl, fun turn hturn => ?_⟩
    rcases List.mem_append.mp hturn with hold | hnew
    · exact hturns turn hold
    · obtain rfl := List.mem_singleton.mp hnew
      exact hc
  broken w c h := h.elim

end Parties

namespace Party

variable {turns : List Turn}

/-- A request of one of the calls of the party. -/
def Sends (p : Party) (c : CallArgs) : Prop :=
  ∃ call ∈ p.calls, ∃ args bytes, call.Sends args ∧ encode args = .ok bytes ∧
    c = compoundCall p.auth bytes

/-- The turns of a party are calls that it sends. -/
theorem sends_taken (p : Party) (turns : List Turn) :
    ∀ turn ∈ p.taken turns, p.Sends turn.call := by
  have hrefines : ∀ call ∈ p.calls, Action.Refines (SameClient _ p.auth) (OnBroken fun _ => False)
      (call.perform p.build) (call.perform p.build) := fun call hcall =>
    (simulates_sent (P := p.Sends) (τ := Replay)).refines_perform fun args bytes hargs henc =>
      ⟨call, hcall, args, bytes, hargs, henc, rfl⟩
  have hstart : SameClient
      (fun (w w' : Wire Replay) => w = w' ∧ ∀ turn ∈ w.turns, p.Sends turn.call) p.auth
      (p.client turns) (p.client turns) :=
    ⟨⟨rfl, List.forall_mem_nil _⟩, rfl, rfl, rfl⟩
  obtain ⟨-, hafter⟩ := Action.Refines.play_after hrefines
    (fun call _ => (simulates_sent (P := p.Sends)).fails_perform call) hstart id
  exact hafter.transport.2

/-- The observer accepts the turns. -/
theorem accepted_taken (p : Party) (hcarried : ∀ call ∈ p.calls, Carried call)
    (hm : p.build = .release ∨ p.calls.length + 1 < 2 ^ 32) (turns : List Turn) :
    (run (Conversation.next p.auth) .start (p.taken turns)).isSome :=
  accepted_calls (c := p.client turns) (between_new (⟨turns⟩ : Replay) p.auth)
    (fun _ hpath => hcarried _ hpath) hm

/-- A request names an owner of the party, if it names one. -/
theorem Sends.sent {p : Party} {turn : Turn} (h : p.Sends turn.call)
    (howners : ∀ owner, .connect owner ∈ p.calls → mountOf owner = i) :
    ∃ args, Sent mountOf i turn args := by
  obtain ⟨call, hcall, args, bytes, hsends, henc, hc⟩ := h
  refine ⟨args, by rw [hc]; exact henc, fun a ha => ?_⟩
  cases hsends with
  | exchangeId owner =>
      obtain rfl := NfsArgOp4.exchangeId.inj (List.cons.inj ha).1
      exact howners owner hcall
  | resolve path sessionId slot =>
      rw [resolveArgs_eq] at ha
      cases ha
  | _ => cases ha

/-- What the calls return on a server of the party's own. -/
theorem returned_own {files : FileServer e.tree} {p : Party}
    {t : Served (MountServer (ownExport e f))} (hcarried : ∀ call ∈ p.calls, Carried call)
    (hm : p.build = .release ∨ p.calls.length + 1 < 2 ^ 32)
    (hrun : run take (Served.mk (ownServer files f)) turns = some t) :
    Action.UpToFailure (p.returned turns) (Action.play (Mounted.perform e.tree) .new p.calls) ∧
      (p.taken turns = turns →
        p.returned turns = Action.play (Mounted.perform e.tree) .new p.calls) := by
  -- On a server of its own the party is a client as in `Lifecycle`.
  have halone : results p.build (Nfs4Client.new (Served.mk (ownServer files f)) p.auth) p.calls
      = Action.play (Mounted.perform e.tree) .new p.calls :=
    tracks_play (tracks_new (e := ownExport e f) files p.auth) hcarried (by rwa [Nat.zero_add])
  have hstart : SameClient (Replays turns) p.auth (p.client turns)
      (Nfs4Client.new (Served.mk (ownServer files f)) p.auth) :=
    ⟨⟨List.nil_append _, Option.isSome_iff_exists.mpr ⟨t, hrun⟩⟩, rfl, rfl, rfl⟩
  have hsimulates := simulates_replay (S := MountServer (ownExport e f)) turns
  rw [← halone]
  constructor
  · rcases hsimulates.results (m := p.build) (fun _ _ _ _ _ _ => trivial) hstart with
      heq | ⟨-, hfail⟩
    · rw [returned, heq]
      exact Action.upToFailure_refl _
    · exact hfail
  · intro hfinished
    refine (Action.Refines.play_after
      (fun call _ => hsimulates.refines_perform fun _ _ _ _ => trivial)
      (fun call _ => hsimulates.fails_perform call) hstart fun hleft => ?_).1
    have htaken : p.taken turns <+: turns := by rw [hfinished]
    exact hleft.deviates htaken

end Party

/-! ### A schedule -/

section Schedule

variable [DecidableEq ι] {files : FileServer e.tree} {parties : ι → Party}

/-- The server gave the answers, and each party took its turns. -/
structure Consistent (files : FileServer e.tree) (parties : ι → Party) (s : Shared e ι) :
    Prop where
  answered :
    run (fun t turn => take t turn.2) (Served.mk (MountServer.new files)) s.turns = some s.server
  taken : ∀ i, partOf i s.turns <+: (parties i).taken (partOf i s.turns)

/-- A party that is done takes no turn. -/
theorem Shared.step_none {s : Shared e ι} (h : (parties i).request (partOf i s.turns) = none) :
    s.step parties i = s := by
  rw [Shared.step, h]

/-- A turn is recorded with its answer. -/
theorem Shared.turns_step {s : Shared e ι} {c : CallArgs}
    (h : (parties i).request (partOf i s.turns) = some c) :
    (s.step parties i).turns = s.turns ++ [(i, ⟨c, (RpcTransport.call s.server c).1⟩)] := by
  rw [Shared.step, h]

/-- A turn is a call on the shared server. -/
theorem Shared.server_step {s : Shared e ι} {c : CallArgs}
    (h : (parties i).request (partOf i s.turns) = some c) :
    (s.step parties i).server = (RpcTransport.call s.server c).2 := by
  rw [Shared.step, h]

/-- **Step.** The server has got the calls of the turns, and nothing else. -/
theorem Consistent.step {s : Shared e ι} (h : Consistent files parties s) (i : ι) :
    Consistent files parties (s.step parties i) := by
  cases hrequest : (parties i).request (partOf i s.turns) with
  | none =>
      rw [Shared.step_none hrequest]
      exact h
  | some c =>
      constructor
      · rw [Shared.turns_step hrequest, Shared.server_step hrequest]
        refine run_append.mpr ⟨_, h.answered, run_cons_eq_some.mpr ⟨_, ?_, rfl⟩⟩
        exact if_pos rfl
      · intro j
        rw [Shared.turns_step hrequest]
        by_cases hij : i = j
        · subst hij
          rw [partOf_concat_self]
          exact (parties i).taken_concat (h.taken i) hrequest
        · rw [partOf_concat_of_ne hij]
          exact h.taken j

/-- A schedule, one turn longer. -/
theorem play_concat (schedule : List ι) (i : ι) :
    Shared.play files parties (schedule ++ [i])
      = (Shared.play files parties schedule).step parties i := by
  rw [Shared.play, List.foldl_append]
  rfl

/-- **Run.** After every schedule the server has got the calls of the turns. -/
theorem consistent_play (files : FileServer e.tree) (parties : ι → Party) (schedule : List ι) :
    Consistent files parties (Shared.play files parties schedule) := by
  induction schedule using List.reverseRecOn with
  | nil => exact ⟨rfl, fun i => List.nil_prefix⟩
  | append_singleton schedule i ih =>
      rw [play_concat]
      exact ih.step i

/-- A schedule has no more turns than places. -/
theorem length_turns_play (files : FileServer e.tree) (parties : ι → Party) (schedule : List ι) :
    (Shared.play files parties schedule).turns.length ≤ schedule.length := by
  induction schedule using List.reverseRecOn with
  | nil => exact le_rfl
  | append_singleton schedule i ih =>
      rw [play_concat, List.length_append, List.length_singleton]
      cases hrequest :
          (parties i).request (partOf i (Shared.play files parties schedule).turns) with
      | none =>
          rw [Shared.step_none hrequest]
          exact Nat.le_succ_of_le ih
      | some c =>
          rw [Shared.turns_step hrequest, List.length_append, List.length_singleton]
          exact Nat.succ_le_succ ih

/-- A party that is not finished has taken all the turns that were its. -/
theorem request_or_count (files : FileServer e.tree) (parties : ι → Party) (i : ι)
    (schedule : List ι) :
    (parties i).request (partOf i (Shared.play files parties schedule).turns) = none ∨
      (partOf i (Shared.play files parties schedule).turns).length = schedule.count i := by
  induction schedule using List.reverseRecOn with
  | nil => exact .inr rfl
  | append_singleton schedule j ih =>
      rw [play_concat, List.count_append]
      cases hrequest :
          (parties j).request (partOf j (Shared.play files parties schedule).turns) with
      | none =>
          -- The party scheduled has nothing left to ask, and the step is none.
          rw [Shared.step_none hrequest]
          by_cases hij : j = i
          · subst hij
            exact .inl hrequest
          · rw [List.count_singleton, if_neg (by simpa using hij)]
            exact ih
      | some c =>
          rw [Shared.turns_step hrequest]
          by_cases hij : j = i
          · subst hij
            right
            rw [partOf_concat_self, List.length_append, List.count_singleton_self]
            rcases ih with hnone | hcount
            · rw [hrequest] at hnone
              cases hnone
            · rw [hcount, List.length_singleton]
          · rw [partOf_concat_of_ne hij, List.count_singleton, if_neg (by simpa using hij)]
            exact ih

/-- A party takes three turns for each of its calls, or fewer. -/
theorem finished_of_count {schedule : List ι}
    (h : 3 * (parties i).calls.length ≤ schedule.count i) :
    (parties i).taken (partOf i (Shared.play files parties schedule).turns)
      = partOf i (Shared.play files parties schedule).turns := by
  have hfirst := (consistent_play files parties schedule).taken i
  have hle : ((parties i).taken (partOf i (Shared.play files parties schedule).turns)).length
      ≤ (partOf i (Shared.play files parties schedule).turns).length := by
    rcases request_or_count files parties i schedule with hnone | hcount
    · -- It has no next request.
      rw [Party.request, Option.map_eq_none_iff, List.getElem?_eq_none_iff] at hnone
      exact hnone
    · rw [hcount]
      exact ((parties i).length_taken_le _).trans h
  exact (hfirst.eq_of_length_le hle).symm

end Schedule

/-- Another owner than `sampleOwner`. -/
def neighbourOwner : ClientOwner4 where
  coVerifier := FixedOpaque.ofBytes 8 [2]
  coOwnerid := ⟨[8]⟩

/-- A mount that is used and ended, and one that stays. -/
def neighbours : Bool → Party
  | true => ⟨.checked, .none, [.connect sampleOwner, .resolvePath "\\", .disconnect]⟩
  | false => ⟨.release, .none, [.connect neighbourOwner, .resolvePath "\\"]⟩

/-- The two take turns. -/
def alternating : List Bool :=
  [true, false, true, false, true, false, true, false, true, false, true, false, true, true, true]

/-- The ids of the sample server are different. -/
theorem distinctIds_sampleExport : DistinctIds sampleExport 15 where
  clientId := by decide +kernel
  sessionId := by decide +kernel

/-- Both mounts come to the end of their calls. -/
example : 3 * (neighbours true).calls.length ≤ alternating.count true ∧
    3 * (neighbours false).calls.length ≤ alternating.count false := by
  decide

end NfsMount.Mount
