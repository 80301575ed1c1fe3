import NfsMount.Mount.Calls
import NfsMount.Proofs.Resolve
import NfsMount.Proofs.Sessions
import NfsMount.Server.Mount

/-!
# `NfsMount.Proofs.Lifecycle`: a mount from its first call to its last

`Mounted` is what a mount is for, without sessions, slots and sequence ids: it is connected or
not, and in a connected mount a path is a walk in the file tree. The one thing that shows
through is that a server takes one RECLAIM_COMPLETE from a client, and so each connect behind
the first one fails with its last request, in a session that works.

`Usable` ties the slots of the client to those of the server. One lemma for each call says that
the client on a `MountServer` returns what `Mounted` says and keeps the two tied (`tracks_connect`,
`tracks_disconnect`, `tracks_resolvePath`). `lifecycle` is about any calls, one after the other.
-/

set_option autoImplicit false

namespace NfsMount.Mount

open NfsMount.Lib NfsMount.XdrCodec NfsMount.Nfs4Types NfsMount.OncRpc NfsMount.Nfs4Client
  NfsMount.Server CompoundServer

variable {Node : Type}

/-! ### What a mount is for -/

/-- A mount without sessions: which owners have been connected before, and whether it is
connected. -/
structure Mounted where
  connected : Bool
  /-- The owners whose RECLAIM_COMPLETE the server took. -/
  reclaimed : ClientOwner4 → Bool

namespace Mounted

/-- Nobody has been connected. -/
def new : Mounted where
  connected := false
  reclaimed _ := false

/-- What the calls return in such a mount. -/
def perform (t : FileTree Node) : MountCall → Action Mounted MountError (Option NfsFh4)
  | .connect owner => fun s =>
      if s.reclaimed owner then
        (.err (.nfs (.nfs .completeAlready)), { s with connected := true })
      else
        (.ok none, { connected := true, reclaimed := Function.update s.reclaimed owner true })
  | .disconnect => fun s =>
      if s.connected then (.ok none, { s with connected := false })
      else (.err (.nfs .noSession), s)
  | .resolvePath path => fun s =>
      if s.connected then (some <$> walked t t.root (toNfsComponents path), s)
      else (.err (.nfs .noSession), s)

end Mounted

/-! ### The server -/

/-- A request whose operations all run is answered with their results. -/
theorem serve_of_execute {S : Type} [CompoundServer S] {s s' : S} {args : Compound4args}
    {results : List NfsResOp4} (h : execute (start s) args.argarray = (results, s')) :
    serve s args = (⟨lastStatus results, args.tag, results⟩, s') := by
  simp only [serve, show execute (start s) args.argarray = _ from h]

/-- A compound of one operation, which is executed whether it fails or not. -/
theorem serve_single {S : Type} [CompoundServer S] (s : S) {args : Compound4args} {op : NfsArgOp4}
    (h : args.argarray = [op]) :
    serve s args = (⟨status (perform (start s) op).1, args.tag, [(perform (start s) op).1]⟩,
      (perform (start s) op).2) := by
  have hexecute : execute (start s) args.argarray
      = ([(perform (start s) op).1], (perform (start s) op).2) := by
    simp only [h, execute, ite_self]
  exact serve_of_execute hexecute

section Server

variable {e : Export Node} {s : MountServer e}

/-- The server behind a SEQUENCE, in a compound of the session `r`. -/
def entered (s : MountServer e) (a : Sequence4args) (r : SessionRecord) : MountServer e :=
  { s.setSession a.saSessionid
      (some { r with lastIds := r.lastIds.set a.saSlotid.toNat a.saSequenceid }) with
    inSession := some r.owner }

/-- SEQUENCE stores the id of the request on its slot. -/
theorem sessions_entered (s : MountServer e) (a : Sequence4args) (r : SessionRecord) :
    (entered s a r).sessions a.saSessionid
      = some { r with lastIds := r.lastIds.set a.saSlotid.toNat a.saSequenceid } :=
  Function.update_self ..

/-- A compound whose SEQUENCE is the next one of its slot. -/
theorem execute_sequence {a : Sequence4args} {r : SessionRecord} {last : SequenceId4}
    (hsession : s.sessions a.saSessionid = some r)
    (hlast : r.lastIds[a.saSlotid.toNat]? = some last) (hseq : a.saSequenceid = last + 1)
    (ops : List NfsArgOp4) :
    execute (start s) (.sequence a :: ops)
      = (.sequence ⟨.ok, some (s.files.sequenced a)⟩ :: (execute (entered (start s) a r) ops).1,
        (execute (entered (start s) a r) ops).2) := by
  have hperform : perform (start s) (.sequence a)
      = (.sequence ⟨.ok, some (s.files.sequenced a)⟩, entered (start s) a r) := by
    show (start s).sequence a = _
    have hin : (start s).inSession = none := rfl
    have hsession' : (start s).sessions a.saSessionid = some r := hsession
    simp only [MountServer.sequence, hin, Option.isSome_none, Bool.false_eq_true, if_false,
      hsession', hlast, if_pos hseq]
    rfl
  rw [execute_cons_ok (by rw [hperform]; rfl), hperform]

/-- In a session, the operations on files are those of the file server. -/
theorem execute_files {owner : ClientOwner4} (hin : s.inSession = some owner)
    {ops : List NfsArgOp4} (hops : ∀ op ∈ ops, ∀ s : MountServer e, perform s op = s.onFiles op) :
    execute s ops = ((execute s.files ops).1, { s with files := (execute s.files ops).2 }) := by
  induction ops generalizing s with
  | nil => rfl
  | cons op ops ih =>
      have hop : perform s op
          = ((perform s.files op).1, { s with files := (perform s.files op).2 }) := by
        rw [hops op List.mem_cons_self, MountServer.onFiles, hin]
        rfl
      by_cases hok : status (perform s.files op).1 = .ok
      · -- The session is kept, so the rest runs in it too.
        have hrest := ih (s := { s with files := (perform s.files op).2 }) hin
          fun op' hop' => hops op' (List.mem_cons_of_mem op hop')
        rw [execute_cons_ok (by rw [hop]; exact hok), execute_cons_ok hok, hop, hrest]
      · rw [execute_cons_err (by rw [hop]; exact hok), execute_cons_err hok, hop]

/-- The operations of a resolution behind its SEQUENCE. -/
theorem resolve_onFiles (components : List String) :
    ∀ op ∈ NfsArgOp4.putRootFh :: (lookups components ++ [.getFh]),
      ∀ s : MountServer e, perform s op = s.onFiles op := by
  intro op hop s
  simp only [lookups, List.mem_cons, List.mem_append, List.mem_map, List.not_mem_nil,
    or_false] at hop
  rcases hop with rfl | ⟨name, -, rfl⟩ | rfl <;> rfl

/-- What the file server returns to them. -/
theorem resolvedHandle_rooted {t : FileTree Node} (files : FileServer t) (r : NfsResOp4)
    (components : List String) :
    resolvedHandle (reply (r :: (execute files
        (.putRootFh :: (lookups components ++ [.getFh]))).1)) = walked t t.root components := by
  have hroot : perform files .putRootFh = (.putRootFh .ok, { files with current := some t.root }) :=
    rfl
  rw [execute_cons_ok (by rw [hroot]; rfl), hroot, resolvedHandle_cons _ (List.cons_ne_nil _ _),
    resolvedHandle_cons _ (execute_ne_nil _ (by simp))]
  exact resolvedHandle_walk components t.root _ rfl

/-- An owner has reclaimed when its record says so, and not without one. -/
theorem reclaimed_record (s : MountServer e) (owner : ClientOwner4) :
    (s.record owner).reclaimed = (s.clients owner).any (·.reclaimed) := by
  rw [MountServer.record]
  cases s.clients owner <;> rfl

/-- The record of an owner that is known. -/
theorem record_of_some {owner : ClientOwner4} {r : ClientRecord}
    (h : s.clients owner = some r) : s.record owner = r := by
  rw [MountServer.record, h]
  rfl

/-- The CREATE_SESSION of a client that the server knows, with the number that it expects. -/
theorem createSession_record {owner : ClientOwner4} {r : ClientRecord} {a : CreateSession4args}
    (howner : s.owners a.csaClientid = some owner) (hclient : s.clients owner = some r)
    (hseq : a.csaSequence = r.sequence) :
    s.createSession a
      = (.createSession ⟨.ok, some ⟨e.sessionId s.made, a.csaSequence, 0, e.fore, e.back⟩⟩,
        { (s.setClient owner { r with sequence := r.sequence + 1 }).setSession
            (e.sessionId s.made) (some ⟨owner, List.replicate e.fore.caMaxrequests.toNat 0⟩) with
          made := s.made + 1 }) := by
  simp only [MountServer.createSession, howner, record_of_some hclient, if_pos hseq]
  rfl

/-- RECLAIM_COMPLETE is accepted once for each owner. -/
theorem reclaimComplete_record {owner : ClientOwner4} {r : ClientRecord}
    (hin : s.inSession = some owner) (hclient : s.clients owner = some r) :
    ∃ s', s.reclaimComplete
        = (.reclaimComplete (if r.reclaimed then .completeAlready else .ok), s') ∧
      s'.sessions = s.sessions ∧
      s'.clients = Function.update s.clients owner (some { r with reclaimed := true }) := by
  simp only [MountServer.reclaimComplete, hin, record_of_some hclient]
  cases hr : r.reclaimed with
  | false => exact ⟨_, rfl, rfl, rfl⟩
  | true =>
      refine ⟨s, rfl, rfl, ?_⟩
      rw [show ({ r with reclaimed := true } : ClientRecord) = r by rw [← hr], ← hclient,
        Function.update_eq_self]

/-- The last request of a connect, in the session that was just created. -/
theorem serve_reclaimArgs {owner : ClientOwner4} {r : ClientRecord} {sid : SessionId4}
    {n : UInt32} (hn : n ≠ 0) (hclient : s.clients owner = some r)
    (hsession : s.sessions sid = some ⟨owner, List.replicate n.toNat 0⟩) :
    (serve s (reclaimArgs sid (firstSlot n))).1.status
        = (if r.reclaimed then .completeAlready else .ok) ∧
      (serve s (reclaimArgs sid (firstSlot n))).2.sessions sid
        = some ⟨owner, (List.replicate n.toNat 0).set 0 1⟩ ∧
      (serve s (reclaimArgs sid (firstSlot n))).2.clients
        = Function.update s.clients owner (some { r with reclaimed := true }) := by
  have hpos : 0 < n.toNat := by
    rw [Nat.pos_iff_ne_zero]
    exact fun h => hn (UInt32.toNat_inj.mp h)
  -- The session is new, so that its first slot has taken no id.
  have hlast : (List.replicate n.toNat (0 : SequenceId4))[(0 : UInt32).toNat]? = some 0 := by
    simp [hpos]
  have hexecute := execute_sequence (a := ⟨sid, 1, 0, n - 1, false⟩) hsession hlast rfl
    [.reclaimComplete ⟨false⟩]
  have hin : (entered (start s) ⟨sid, 1, 0, n - 1, false⟩
      ⟨owner, List.replicate n.toNat 0⟩).inSession = some owner := rfl
  obtain ⟨s', hs', hsessions, hclients⟩ := reclaimComplete_record hin hclient
  have hrest : execute (entered (start s) ⟨sid, 1, 0, n - 1, false⟩
      ⟨owner, List.replicate n.toNat 0⟩) [.reclaimComplete ⟨false⟩]
        = ([.reclaimComplete (if r.reclaimed then .completeAlready else .ok)], s') := by
    simp only [execute, ite_self]
    rw [show perform _ _ = _ from hs']
  rw [hrest] at hexecute
  rw [show serve s (reclaimArgs sid (firstSlot n)) = _ from serve_of_execute hexecute]
  refine ⟨rfl, ?_, ?_⟩
  · rw [hsessions]
    exact sessions_entered ..
  · rw [hclients]
    rfl

/-- The request of a resolution, on the next sequence id of its slot. -/
theorem serve_resolve {sid : SessionId4} {slot : AllocatedSlot} {r : SessionRecord}
    {last : SequenceId4} (hsession : s.sessions sid = some r)
    (hlast : r.lastIds[slot.slotId.toNat]? = some last) (hseq : slot.sequenceId = last + 1)
    (components : List String) :
    resolvedHandle (serve s (resolveArgs sid slot components)).1
        = walked e.tree e.tree.root components ∧
      (serve s (resolveArgs sid slot components)).2.sessions sid
        = some { r with lastIds := r.lastIds.set slot.slotId.toNat slot.sequenceId } ∧
      (serve s (resolveArgs sid slot components)).2.clients = s.clients := by
  have hexecute := execute_sequence (a := ⟨sid, slot.sequenceId, slot.slotId, slot.highestSlotId,
    false⟩) hsession hlast hseq (.putRootFh :: (lookups components ++ [.getFh]))
  have hargs : (resolveArgs sid slot components).argarray
      = .sequence ⟨sid, slot.sequenceId, slot.slotId, slot.highestSlotId, false⟩
        :: .putRootFh :: (lookups components ++ [.getFh]) := by
    rw [resolveArgs_eq]
  rw [execute_files rfl (resolve_onFiles components), ← hargs] at hexecute
  have hserve := serve_of_execute hexecute
  rw [hserve]
  exact ⟨resolvedHandle_rooted _ _ components, sessions_entered (start s) ⟨sid, slot.sequenceId,
    slot.slotId, slot.highestSlotId, false⟩ r, rfl⟩

end Server

section Calls

variable {e : Export Node} {c : Nfs4Client (Served (MountServer e))}

/-- The client, with the server in another state. -/
def onServer (c : Nfs4Client (Served (MountServer e))) (s : MountServer e) :
    Nfs4Client (Served (MountServer e)) :=
  { c with transport := ⟨s⟩ }

/-- A compound of one operation. -/
theorem run_served_single {args : Compound4args} {op : NfsArgOp4} (hwf : wellFormed args)
    (h : args.argarray = [op]) :
    (Nfs4Client.compound args).run c
      = (.ok ⟨status (perform (start c.transport.state) op).1, args.tag,
          [(perform (start c.transport.state) op).1]⟩,
        onServer c (perform (start c.transport.state) op).2) := by
  obtain ⟨bytes, henc, -⟩ := isCodec.yields _ hwf
  rw [run_compound_served c henc, serve_single _ h]
  rfl

/-- EXCHANGE_ID returns the ids of the owner's record. -/
theorem run_exchangeId_record {owner : ClientOwner4} (hwf : wellFormed owner) :
    ∃ ex s, (Nfs4Client.exchangeId owner).run c = (.ok ex, onServer c s) ∧
      ex.eirClientid = (c.transport.state.record owner).clientId ∧
      ex.eirSequenceid = (c.transport.state.record owner).sequence ∧
      s.owners (c.transport.state.record owner).clientId = some owner ∧
      s.clients = Function.update c.transport.state.clients owner
        (some (c.transport.state.record owner)) := by
  have hrun := run_served_single (c := c) (wellFormed_exchangeArgs hwf) rfl
  refine ⟨_, _, (Action.run_bind_ok hrun).trans (Prod.ext (exchangeResult_single.mpr rfl) rfl), rfl,
    rfl, ?_, rfl⟩
  exact Function.update_self ..

/-- CREATE_SESSION returns the next session, with all of its slots unused. -/
theorem run_createSession_record {owner : ClientOwner4} {r : ClientRecord}
    (howner : c.transport.state.owners r.clientId = some owner)
    (hclient : c.transport.state.clients owner = some r) :
    ∃ cs s, (Nfs4Client.createSession r.clientId r.sequence).run c = (.ok cs, onServer c s) ∧
      granted cs = e.fore.caMaxrequests ∧
      s.sessions cs.csrSessionid
        = some ⟨owner, List.replicate e.fore.caMaxrequests.toNat 0⟩ ∧
      s.clients = Function.update c.transport.state.clients owner
        (some { r with sequence := r.sequence + 1 }) := by
  have hperform := createSession_record (s := start c.transport.state)
    (a := ⟨r.clientId, r.sequence, 0, defaultChan, defaultChan, 0, [.authNone]⟩) howner hclient rfl
  have hrun := run_served_single (c := c) (wellFormed_createArgs r.clientId r.sequence) rfl
  rw [show perform (start c.transport.state) _ = _ from hperform] at hrun
  refine ⟨_, _, (Action.run_bind_ok hrun).trans (Prod.ext (createResult_single.mpr rfl) rfl), rfl,
    ?_, rfl⟩
  exact Function.update_self ..

/-! ### The slots of the client and of the server -/

/-- All the slots of the client are free, and each holds the id behind the last one that the
server took on it. These are at most `k`. -/
structure Usable (k : Nat) (session : SessionManager) (r : SessionRecord) : Prop where
  ne_nil : r.lastIds ≠ []
  inUse : session.slots.inUse = List.replicate r.lastIds.length false
  sequenceIds : session.slots.sequenceIds = r.lastIds.map (· + 1)
  le : ∀ id ∈ r.lastIds, id.toNat ≤ k

namespace Usable

variable {k : Nat} {session : SessionManager} {r : SessionRecord}

/-- Fewer requests leave the session usable for more. -/
theorem mono {n : Nat} (h : Usable k session r) (hn : k ≤ n) : Usable n session r :=
  { h with le := fun id hid => (h.le id hid).trans hn }

/-- The first slot. -/
theorem first (h : Usable k session r) :
    ∃ last, r.lastIds[0]? = some last ∧ session.slots.inUse.findIdx? (!·) = some 0 ∧
      session.slots.sequenceIds[0]? = some (last + 1) ∧ last.toNat ≤ k := by
  obtain ⟨last, rest, hlast⟩ := List.exists_cons_of_ne_nil h.ne_nil
  refine ⟨last, by rw [hlast]; rfl, ?_, ?_, h.le last (by rw [hlast]; exact List.mem_cons_self)⟩
  · rw [h.inUse, hlast, List.length_cons, List.replicate_succ]
    rfl
  · rw [h.sequenceIds, hlast]
    rfl

/-- After a request on the first slot, with its next id. -/
theorem used (h : Usable k session r) {last : SequenceId4} (hlast : r.lastIds[0]? = some last) :
    Usable (k + 1) { session with slots := (session.slots.take 0).free 0 (last + 1 + 1) }
      { r with lastIds := r.lastIds.set 0 (last + 1) } := by
  obtain ⟨last', rest, heq⟩ := List.exists_cons_of_ne_nil h.ne_nil
  obtain rfl : last' = last := by simpa [heq] using hlast
  have hrest : ∀ id ∈ rest, id.toNat ≤ k := fun id hid =>
    h.le id (by rw [heq]; exact List.mem_cons_of_mem _ hid)
  have hfirst : last'.toNat ≤ k := h.le last' (by rw [heq]; exact List.mem_cons_self)
  constructor
  case ne_nil => simp [heq]
  case inUse =>
      show (session.slots.inUse.set 0 true).set 0 false = _
      rw [h.inUse, heq]
      rfl
  case sequenceIds =>
      show session.slots.sequenceIds.set 0 _ = _
      rw [h.sequenceIds, heq]
      rfl
  case le =>
      -- The id of the first slot rises by one, or starts again from zero.
      intro id hid
      rw [heq, List.set_cons_zero, List.mem_cons] at hid
      rcases hid with rfl | hid
      · exact (toNat_add_one_le _).trans (Nat.succ_le_succ hfirst)
      · exact Nat.le_succ_of_le (hrest id hid)

end Usable

/-- A new session, whose first slot was used once. -/
theorem usable_new (k : Nat) (owner : ClientOwner4) (sid : SessionId4) (clientId : ClientId4)
    {n : UInt32} (hn : n ≠ 0) :
    Usable (k + 1) { SessionManager.new sid clientId n 90 with
        slots := ((SlotTable.new n).take 0).free 0 2 }
      ⟨owner, (List.replicate n.toNat 0).set 0 1⟩ := by
  obtain ⟨j, hj⟩ : ∃ j, n.toNat = j + 1 :=
    Nat.exists_eq_succ_of_ne_zero fun h => hn (UInt32.toNat_inj.mp h)
  have hnew : Usable 0 (SessionManager.new sid clientId n 90)
      ⟨owner, List.replicate n.toNat 0⟩ := by
    refine ⟨by simp [hj], ?_, ?_, ?_⟩
    · simp [SessionManager.new, SlotTable.new]
    · simp [SessionManager.new, SlotTable.new]
    · simp
  have hlast : (List.replicate n.toNat (0 : SequenceId4))[0]? = some 0 := by
    simp [hj]
  exact (hnew.used hlast).mono (Nat.succ_le_succ (Nat.zero_le k))

/-! ### The calls -/

variable {m : Build} {k : Nat} {a : Mounted}

/-- The client and the server are where the mount is, after `k` calls. -/
structure Tracks (k : Nat) (a : Mounted) (c : Nfs4Client (Served (MountServer e))) : Prop where
  connected : a.connected = c.session.isSome
  usable : ∀ session, c.session = some session →
    ∃ r, c.transport.state.sessions session.sessionId = some r ∧ Usable k session r
  reclaimed : ∀ owner, a.reclaimed owner
    = (c.transport.state.clients owner).any (·.reclaimed)

/-- A call that changes nothing. -/
theorem Tracks.succ (hc : Tracks k a c) : Tracks (k + 1) a c where
  connected := hc.connected
  usable session hsession := by
    obtain ⟨r, hr, husable⟩ := hc.usable session hsession
    exact ⟨r, hr, husable.mono (Nat.le_succ k)⟩
  reclaimed := hc.reclaimed

/-- A call ends as the mount says, and leaves the two where the mount is. -/
def TracksCall (m : Build) (k : Nat) (a : Mounted) (c : Nfs4Client (Served (MountServer e)))
    (call : MountCall) : Prop :=
  ((call.perform m).run c).1 = ((Mounted.perform e.tree call).run a).1 ∧
    Tracks (k + 1) ((Mounted.perform e.tree call).run a).2 ((call.perform m).run c).2

/-- The client in a session that was just created, with these slots. -/
def inNew (c : Nfs4Client (Served (MountServer e))) (s : MountServer e) (sid : SessionId4)
    (clientId : ClientId4) (slots : SlotTable) : Nfs4Client (Served (MountServer e)) where
  transport := ⟨s⟩
  auth := c.auth
  session := some ⟨sid, clientId, 90, slots⟩

/-- The last request of a connect. Its slot is released, whatever the server answers. -/
theorem run_reclaimComplete_record {s : MountServer e} (sid : SessionId4) (clientId : ClientId4)
    {n : UInt32} (hn : n ≠ 0) :
    (Nfs4Client.reclaimComplete m sid).run (inNew c s sid clientId (SlotTable.new n))
      = (checkStatus (serve s (reclaimArgs sid (firstSlot n))).1,
          inNew c (serve s (reclaimArgs sid (firstSlot n))).2 sid clientId
            (((SlotTable.new n).take 0).free 0 2)) := by
  obtain ⟨bytes, henc, -⟩ := isCodec.yields _ (wellFormed_reclaimArgs sid (firstSlot n))
  have halloc : (Nfs4Client.tryAllocSlot m).run (inNew c s sid clientId (SlotTable.new n))
      = (.ok (some (firstSlot n)), inNew c s sid clientId ((SlotTable.new n).take 0)) := by
    simp only [Action.run, Nfs4Client.tryAllocSlot, Nfs4Client.onSlots, inNew,
      SlotTable.tryAllocSlot_new m hn]
  have hcompound := run_compound_served
    (inNew c s sid clientId ((SlotTable.new n).take 0)) henc
  have hrelease : (Nfs4Client.releaseSlot m (firstSlot n).slotId).run
      (inNew c (serve s (reclaimArgs sid (firstSlot n))).2 sid clientId ((SlotTable.new n).take 0))
        = (.ok (), inNew c (serve s (reclaimArgs sid (firstSlot n))).2 sid clientId
            (((SlotTable.new n).take 0).free 0 2)) := by
    simp only [Action.run, Nfs4Client.releaseSlot, Nfs4Client.onSlots, inNew,
      SlotTable.releaseSlot_firstSlot m hn]
  rw [Nfs4Client.reclaimComplete, Action.run_bind_ok halloc]
  dsimp only
  rw [Action.run_bind_ok hcompound]
  exact Action.run_bind_ok hrelease

/-- A connect. The client holds a new session, also when the server does not take its
RECLAIM_COMPLETE. -/
theorem run_connect_record (m : Build) (c : Nfs4Client (Served (MountServer e)))
    {owner : ClientOwner4} (hwf : wellFormed owner) :
    ∃ sid clientId s, (Nfs4Client.connect m owner).run c
        = (if (c.transport.state.record owner).reclaimed then .err (.nfs .completeAlready)
            else .ok (),
          inNew c s sid clientId
            (((SlotTable.new e.fore.caMaxrequests).take 0).free 0 2)) ∧
      s.sessions sid
        = some ⟨owner, (List.replicate e.fore.caMaxrequests.toNat 0).set 0 1⟩ ∧
      (s.clients owner).any (·.reclaimed) = true ∧
      ∀ o ≠ owner, s.clients o = c.transport.state.clients o := by
  obtain ⟨ex, s₁, hrun₁, hid, hseq, howner, hclients₁⟩ := run_exchangeId_record (c := c) hwf
  have hclient : s₁.clients owner = some (c.transport.state.record owner) := by
    rw [hclients₁]
    exact Function.update_self ..
  obtain ⟨cs, s₂, hrun₂, hgranted, hsession, hclients₂⟩ :=
    run_createSession_record (c := onServer c s₁) howner hclient
  -- RECLAIM_COMPLETE, on the first slot of the session that was just created.
  obtain ⟨hstatus, hsession₃, hclients₃⟩ := serve_reclaimArgs (s := s₂) e.slots_ne_zero
    (by rw [hclients₂]; exact Function.update_self ..) hsession
  have hstep₃ := run_reclaimComplete_record (c := c) (m := m) (s := s₂)
    cs.csrSessionid ex.eirClientid e.slots_ne_zero
  refine ⟨cs.csrSessionid, (c.transport.state.record owner).clientId, _, ?_, hsession₃, ?_,
    fun o ho => ?_⟩
  · rw [Nfs4Client.connect, Action.run_bind_ok hrun₁, hid, hseq, Action.run_bind_ok hrun₂,
      Action.run_bind_ok (Action.run_modify _ _)]
    -- The session that the client stores has the slots that were granted.
    rw [hid] at hstep₃
    rw [show SessionManager.new cs.csrSessionid _ cs.csrForeChanAttrs.caMaxrequests 90
      = SessionManager.new cs.csrSessionid (c.transport.state.record owner).clientId
        e.fore.caMaxrequests 90 by rw [← hgranted]]
    refine hstep₃.trans (Prod.ext ?_ rfl)
    rw [checkStatus, hstatus]
    cases (c.transport.state.record owner).reclaimed <;> rfl
  · rw [hclients₃, Function.update_self]
    rfl
  · rw [hclients₃, Function.update_of_ne ho, hclients₂, Function.update_of_ne ho]
    show s₁.clients o = _
    rw [hclients₁, Function.update_of_ne ho]

/-- A connect keeps the client and the mount together. -/
theorem tracks_connect (hc : Tracks k a c) {owner : ClientOwner4} (hwf : wellFormed owner) :
    TracksCall m k a c (.connect owner) := by
  obtain ⟨sid, clientId, s, hrun, hsession, hreclaimed, hother⟩ := run_connect_record m c hwf
  have hbefore : a.reclaimed owner = (c.transport.state.record owner).reclaimed :=
    (hc.reclaimed owner).trans (reclaimed_record c.transport.state owner).symm
  -- Whether the connect returns or fails, the session is there and the owner has reclaimed.
  have htracks : ∀ b : Mounted, b.connected = true →
      (∀ o, b.reclaimed o = if o = owner then true else a.reclaimed o) →
      Tracks (k + 1) b (inNew c s sid clientId
        (((SlotTable.new e.fore.caMaxrequests).take 0).free 0 2)) := by
    intro b hconnected hb
    refine ⟨hconnected, fun session heq => ?_, fun o => ?_⟩
    · obtain rfl := Option.some.inj heq
      exact ⟨_, hsession, usable_new k owner sid clientId e.slots_ne_zero⟩
    · rw [hb o]
      by_cases ho : o = owner
      · rw [if_pos ho, ho]
        exact hreclaimed.symm
      · rw [if_neg ho, hc.reclaimed o]
        exact congrArg _ (hother o ho).symm
  rw [TracksCall, MountCall.perform]
  cases hr : (c.transport.state.record owner).reclaimed with
  | false =>
      rw [hr] at hrun hbefore
      -- The first connect of the owner: RECLAIM_COMPLETE succeeds.
      rw [Action.run_bind_ok (Action.run_mapError_ok hrun)]
      have hmount : (Mounted.perform e.tree (.connect owner)).run a = (.ok none,
          { connected := true, reclaimed := Function.update a.reclaimed owner true }) := by
        simp only [Mounted.perform, Action.run, hbefore, Bool.false_eq_true, if_false]
      rw [hmount]
      refine ⟨rfl, htracks _ rfl fun o => ?_⟩
      exact Function.update_apply ..
  | true =>
      rw [hr] at hrun hbefore
      -- A later one: the server answers COMPLETE_ALREADY, and the session is kept.
      rw [Action.run_bind_err (Action.run_mapError_err hrun)]
      have hmount : (Mounted.perform e.tree (.connect owner)).run a
          = (.err (.nfs (.nfs .completeAlready)), { a with connected := true }) := by
        simp only [Mounted.perform, Action.run, hbefore, if_true]
      rw [hmount]
      refine ⟨rfl, htracks _ rfl fun o => ?_⟩
      by_cases ho : o = owner
      · rw [if_pos ho, ho]
        exact hbefore
      · rw [if_neg ho]

/-- A disconnect keeps the client and the mount together. -/
theorem tracks_disconnect (hc : Tracks k a c) : TracksCall m k a c .disconnect := by
  cases hsession : c.session with
  | none =>
      have hconnected : a.connected = false := by rw [hc.connected, hsession]; rfl
      -- Not connected: the client sends nothing.
      have hrun : (Nfs4Client.disconnect).run c = (.err .noSession, c) := by
        rw [Nfs4Client.disconnect, Action.run_bind_ok (Action.run_get c)]
        simp only [hsession, Action.run_lift]
      have hmount : (Mounted.perform e.tree .disconnect).run a = (.err (.nfs .noSession), a) := by
        simp only [Mounted.perform, Action.run, hconnected, Bool.false_eq_true, if_false]
      rw [TracksCall, MountCall.perform, Action.run_bind_err (Action.run_mapError_err hrun), hmount]
      exact ⟨rfl, hc.succ⟩
  | some session =>
      -- The server knows the session, so that DESTROY_SESSION succeeds.
      obtain ⟨r, hr, -⟩ := hc.usable session hsession
      have hconnected : a.connected = true := by rw [hc.connected, hsession]; rfl
      have hserver : perform (start c.transport.state) (.destroySession ⟨session.sessionId⟩)
          = (.destroySession .ok, (start c.transport.state).setSession session.sessionId none) := by
        show (start c.transport.state).destroySession _ = _
        have hr' : (start c.transport.state).sessions session.sessionId = some r := hr
        simp only [MountServer.destroySession, hr']
      have hcompound := run_served_single (c := c) (wellFormed_destroyArgs session.sessionId) rfl
      rw [hserver] at hcompound
      have hrun : (Nfs4Client.disconnect).run c = (.ok (), { c with
          transport := ⟨(start c.transport.state).setSession session.sessionId none⟩
          session := none }) := by
        rw [Nfs4Client.disconnect, Action.run_bind_ok (Action.run_get c)]
        simp only [hsession]
        exact (Action.run_bind_ok hcompound).trans (Action.run_bind_ok (Action.run_modify _ _))
      have hmount : (Mounted.perform e.tree .disconnect).run a
          = (.ok none, { a with connected := false }) := by
        simp only [Mounted.perform, Action.run, hconnected, if_true]
      rw [TracksCall, MountCall.perform, Action.run_bind_ok (Action.run_mapError_ok hrun), hmount]
      refine ⟨rfl, rfl, fun session heq => ?_, hc.reclaimed⟩
      cases heq

/-- A resolution of a path that XDR can carry. In a checked build the sequence id of the slot
must not be at its end. -/
theorem tracks_resolvePath (hc : Tracks k a c) {path : String}
    (hfits : Fits (toNfsComponents path)) (hm : m = .release ∨ k + 2 < 2 ^ 32) :
    TracksCall m k a c (.resolvePath path) := by
  cases hsession : c.session with
  | none =>
      have hconnected : a.connected = false := by rw [hc.connected, hsession]; rfl
      have hrun := run_resolvePath_none m path hsession
      have hmount : (Mounted.perform e.tree (.resolvePath path)).run a
          = (.err (.nfs .noSession), a) := by
        simp only [Mounted.perform, Action.run, hconnected, Bool.false_eq_true, if_false]
      rw [TracksCall, MountCall.perform, Action.run_bind_err hrun, hmount]
      exact ⟨rfl, hc.succ⟩
  | some session =>
      obtain ⟨r, hr, husable⟩ := hc.usable session hsession
      obtain ⟨last, hlast, hfree, hseqId, hle⟩ := husable.first
      obtain ⟨slot, hid, hslotSeq, hrun⟩ := run_resolvePath_free m path hsession hfree
      have hseq : slot.sequenceId = last + 1 := Option.some.inj (hslotSeq.symm.trans hseqId)
      -- The slot is released after so few calls that its id does not overflow.
      have hnext : m.addU32 slot.sequenceId 1 = some (last + 1 + 1) := by
        have hreleasable : Releasable m session.slots 0 :=
          releasable_of_le hm hseqId ((toNat_add_one_le last).trans (Nat.succ_le_succ hle))
        obtain ⟨next, hadd⟩ := addU32_of_releasable hreleasable hslotSeq
        rw [hadd, Build.addU32_eq_some hadd, hseq]
      obtain ⟨bytes, henc⟩ := encode_of_fits session.sessionId slot hfits
      have hcompound := run_compound_served
        (withSlots c session (session.slots.take 0) c.transport) henc
      have hdone := hrun _ _ (Action.run_attempt_ok hcompound)
      obtain ⟨hwalk, hsessions, hclients⟩ := serve_resolve (s := c.transport.state) hr
        (by rw [hid]; exact hlast) hseq (toNfsComponents path)
      simp only [hnext, propagate_ok_bind] at hdone
      rw [show (withSlots c session (session.slots.take 0) c.transport).transport.state
        = c.transport.state from rfl, hwalk] at hdone
      have hconnected : a.connected = true := by rw [hc.connected, hsession]; rfl
      have hmount : (Mounted.perform e.tree (.resolvePath path)).run a
          = (some <$> walked e.tree e.tree.root (toNfsComponents path), a) := by
        simp only [Mounted.perform, Action.run, hconnected, if_true]
      have htracks : Tracks (k + 1) a (withSlots c session
          ((session.slots.take 0).free 0 (last + 1 + 1)) ⟨(serve c.transport.state
            (resolveArgs session.sessionId slot (toNfsComponents path))).2⟩) := by
        refine ⟨hconnected, fun session' heq => ?_, fun o => ?_⟩
        · obtain rfl := Option.some.inj heq
          refine ⟨_, hsessions, ?_⟩
          rw [hid, hseq]
          exact husable.used hlast
        · rw [hc.reclaimed o]
          exact congrArg _ (congrFun hclients o).symm
      -- The slot is free again, whatever the walk came to.
      rw [TracksCall, MountCall.perform, hmount]
      cases hwalked : walked e.tree e.tree.root (toNfsComponents path) with
      | ok fh =>
          rw [hwalked] at hdone
          rw [Action.run_bind_ok hdone]
          exact ⟨rfl, htracks⟩
      | err e =>
          rw [hwalked] at hdone
          rw [Action.run_bind_err hdone]
          exact ⟨rfl, htracks⟩
      | panic =>
          rw [hwalked] at hdone
          rw [Action.run_bind_panic hdone]
          exact ⟨rfl, htracks⟩

/-- The calls that XDR can carry. -/
def Carried : MountCall → Prop
  | .connect owner => wellFormed owner
  | .disconnect => True
  | .resolvePath path => Fits (toNfsComponents path)

/-- Every call keeps the client and the mount together. -/
theorem tracks_perform (hc : Tracks k a c) {call : MountCall} (hcall : Carried call)
    (hm : m = .release ∨ k + 2 < 2 ^ 32) : TracksCall m k a c call := by
  cases call with
  | connect owner => exact tracks_connect hc hcall
  | disconnect => exact tracks_disconnect hc
  | resolvePath path => exact tracks_resolvePath hc hcall hm

/-- The calls behind the first `k`. -/
theorem tracks_play {calls : List MountCall} (hc : Tracks k a c)
    (hcalls : ∀ call ∈ calls, Carried call)
    (hm : m = .release ∨ k + calls.length + 1 < 2 ^ 32) :
    results m c calls = Action.play (Mounted.perform e.tree) a calls := by
  induction calls generalizing k a c with
  | nil => rfl
  | cons call calls ih =>
      rw [List.length_cons] at hm
      obtain ⟨heq, htracks⟩ := tracks_perform (m := m) hc (hcalls call List.mem_cons_self)
        (hm.imp_right fun h => by omega)
      rw [results, Action.play, Action.play, heq]
      exact congrArg _ (ih htracks (fun call' h => hcalls call' (List.mem_cons_of_mem _ h))
        (hm.imp_right fun h => by omega))

/-- A client that makes its first call on a new server. -/
theorem tracks_new (files : FileServer e.tree) (auth : AuthFlavor) :
    Tracks 0 Mounted.new (Nfs4Client.new (Served.mk (MountServer.new files)) auth) where
  connected := rfl
  usable session heq := by cases heq
  reclaimed _ := rfl

end Calls

/-- A server of the sample tree, with sessions of 2 slots. -/
def sampleExport : Export Bool where
  tree := sampleTree
  identity :=
    { eirClientid := ⟨0⟩, eirSequenceid := 0, eirFlags := 0, eirStateProtect := .spNone
      eirServerOwner := ⟨0, ⟨[]⟩⟩, eirServerScope := ⟨[]⟩, eirServerImplId := [] }
  wellFormed_identity := by simp [wellFormed]
  fore := { defaultChan with caMaxrequests := 2 }
  back := defaultChan
  wellFormed_fore := by simp [wellFormed, defaultChan]
  wellFormed_back := by simp [wellFormed, defaultChan]
  slots_ne_zero := by decide
  clientId n := ⟨UInt64.ofNat n⟩
  sessionId n := FixedOpaque.ofBytes 16 [UInt8.ofNat n]

/-- The files of the sample server, before any request. -/
def sampleFiles : FileServer sampleExport.tree where
  current := none
  sequenced a := ⟨a.saSessionid, a.saSequenceid, a.saSlotid, 1, 1, 0⟩
  other := sampleOracle 0 .notsupp

/-- A mount, a resolution, an unmount, and a second mount of the same owner. -/
def remount : List MountCall :=
  [.connect sampleOwner, .resolvePath "\\", .disconnect, .resolvePath "\\", .connect sampleOwner,
    .resolvePath "\\"]

/-- The sample calls can be carried. -/
theorem carried_remount : ∀ call ∈ remount, Carried call := by
  have hroot : Fits (toNfsComponents "\\") := by
    rw [show toNfsComponents "\\" = [] by decide +kernel]
    exact ⟨by decide, by simp⟩
  have howner : wellFormed sampleOwner := ⟨trivial, Nat.one_lt_two_pow (by decide)⟩
  simp [remount, Carried, hroot, howner]

/-- The second connect fails, and its session works all the same. -/
example : Action.play (Mounted.perform sampleTree) .new remount
    = [.ok none, .ok (some ⟨[1]⟩), .ok none, .err (.nfs .noSession),
      .err (.nfs (.nfs .completeAlready)), .ok (some ⟨[1]⟩)] := by
  decide +kernel

end NfsMount.Mount
