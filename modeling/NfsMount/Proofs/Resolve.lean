import NfsMount.Mount.Calls
import NfsMount.Proofs.Connect
import NfsMount.Server.Files

/-!
# `NfsMount.Proofs.Resolve`: path resolution refines a tree walk

`run_resolvePath_free` says what a resolution does on any transport: it takes the first free
slot, sends one compound, releases the slot, and reads the reply. `resolvedHandle_walk` says
what the reply of a file server is, by induction on the components.

`resolve_path_refines` is the composition: the filehandle that is returned is that of the
node that the path leads to, and the slots in use are what they were. The last also holds when
the release of the slot panics, since the flag is cleared before the sequence id is counted on.
-/

set_option autoImplicit false

namespace NfsMount.Mount

open NfsMount.Lib NfsMount.XdrCodec NfsMount.Nfs4Types NfsMount.OncRpc NfsMount.Nfs4Client
  NfsMount.Server

/-! ### The request -/

/-- What XDR can carry: fewer than `2 ^ 32` operations, and names of fewer than `2 ^ 32`
bytes. -/
def Fits (components : List String) : Prop :=
  components.length + 3 < 2 ^ 32 ∧ ∀ name ∈ components, (stringBytes name).length < 2 ^ 32

/-- A resolution is well formed when its path fits. -/
theorem wellFormed_resolveArgs {sessionId : SessionId4} {slot : AllocatedSlot}
    {components : List String} :
    wellFormed (resolveArgs sessionId slot components) ↔ Fits components := by
  have htag : (stringBytes "resolve_path").length < 2 ^ 32 := by decide +kernel
  have hlookups : (∀ op ∈ lookups components, wellFormed op) ↔
      ∀ name ∈ components, (stringBytes name).length < 2 ^ 32 := by
    rw [lookups, List.forall_mem_map]
    exact Iff.rfl
  have hlength : (lookups components).length = components.length := List.length_map _
  rw [resolveArgs_eq]
  show _ ∧ _ ∧ _ ∧ _ ↔ _
  rw [List.forall_mem_cons, List.forall_mem_cons, List.forall_mem_append, hlookups]
  simp only [List.length_cons, List.length_append, hlength]
  constructor
  · rintro ⟨-, -, hlt, -, -, hnames, -⟩
    exact ⟨hlt, hnames⟩
  · rintro ⟨hlt, hnames⟩
    exact ⟨htag, trivial, hlt, ⟨trivial, trivial, trivial, trivial, trivial⟩, trivial, hnames,
      by simp [wellFormed]⟩

/-- The request of a path that fits is encoded. -/
theorem encode_of_fits (sessionId : SessionId4) (slot : AllocatedSlot)
    {components : List String} (hfits : Fits components) :
    ∃ bytes, encode (resolveArgs sessionId slot components) = .ok bytes := by
  obtain ⟨bytes, hbytes, -⟩ := isCodec.yields _ (wellFormed_resolveArgs.mpr hfits)
  exact ⟨bytes, hbytes⟩

/-- The request of another path is an error. -/
theorem encode_of_not_fits (sessionId : SessionId4) (slot : AllocatedSlot)
    {components : List String} (hfits : ¬ Fits components) :
    ∃ e, encode (resolveArgs sessionId slot components) = .error e := by
  cases henc : (encode (resolveArgs sessionId slot components) : Encoded UInt8 XdrError) with
  | error e => exact ⟨e, rfl⟩
  | ok bytes => exact absurd (wellFormed_resolveArgs.mp (aligned _ bytes henc).1) hfits

/-! ### The slot -/

section Slot

variable {m : Build} {t : SlotTable} {i : Nat}

/-- The release of a slot that was just taken, with the sequence id it was taken with. -/
theorem releaseSlot_take {slot : AllocatedSlot} (hi : i < t.inUse.length)
    (hid : slot.slotId.toNat = i) (hseq : t.sequenceIds[i]? = some slot.sequenceId) :
    (t.take i).releaseSlot m slot.slotId =
      match m.addU32 slot.sequenceId 1 with
      | none => (none, (t.take i).clear i)
      | some next => (some (), (t.take i).free i next) := by
  subst hid
  have hlt : slot.slotId.toNat < (t.take slot.slotId.toNat).inUse.length := by
    rwa [SlotTable.take, List.length_set]
  exact SlotTable.releaseSlot_of_lt hlt hseq

/-- A slot that was free is free again after it was taken and cleared. -/
theorem inUse_clear_take (hfree : t.inUse[i]? = some false) :
    ((t.take i).clear i).inUse = t.inUse := by
  obtain ⟨hi, hget⟩ := List.getElem?_eq_some_iff.mp hfree
  show (t.inUse.set i true).set i false = t.inUse
  rw [List.set_set, ← hget]
  exact List.set_getElem_self hi

/-- The sequence id that a release writes does not matter for that. -/
theorem inUse_free_take (hfree : t.inUse[i]? = some false) (next : UInt32) :
    ((t.take i).free i next).inUse = t.inUse :=
  inUse_clear_take hfree

/-- A build in which the next release of slot `i` does not overflow the sequence id. -/
def Releasable (m : Build) (slots : SlotTable) (i : Nat) : Prop :=
  m = .release ∨ slots.sequenceIds[i]? ≠ some 0xFFFFFFFF

/-- An id is counted, or wraps to 0. -/
theorem toNat_add_one_le (id : SequenceId4) : (id + 1).toNat ≤ id.toNat + 1 := by
  rw [UInt32.toNat_add]
  exact Nat.mod_le _ _

/-- The release of a slot whose sequence id is not at its end. -/
theorem releasable_of_le {seq : UInt32} {k : Nat} (hm : m = .release ∨ k + 2 < 2 ^ 32)
    (hseq : t.sequenceIds[i]? = some seq) (hle : seq.toNat ≤ k + 1) : Releasable m t i := by
  refine hm.imp_right fun hk hmax => ?_
  rw [hseq, Option.some.injEq] at hmax
  rw [hmax] at hle
  have : (0xFFFFFFFF : UInt32).toNat = 0xFFFFFFFF := rfl
  omega

/-- A release that does not overflow counts on. -/
theorem addU32_of_releasable {seq : UInt32} (h : Releasable m t i)
    (hseq : t.sequenceIds[i]? = some seq) :
    ∃ next, m.addU32 seq 1 = some next := by
  rcases h with rfl | hne
  · exact ⟨_, rfl⟩
  · cases m with
    | release => exact ⟨_, rfl⟩
    | checked =>
        have hmax : seq.toNat ≠ 0xFFFFFFFF := by
          intro h
          obtain rfl : seq = 0xFFFFFFFF := UInt32.toNat_inj.mp h
          exact hne hseq
        have hlt : seq.toNat + (1 : UInt32).toNat < 2 ^ 32 := by
          have := seq.toNat_lt
          show seq.toNat + 1 < 2 ^ 32
          omega
        exact ⟨seq + 1, by simp only [Build.addU32, if_pos hlt]⟩

end Slot

/-! ### A resolution on any transport -/

section Run

variable {τ : Type} [RpcTransport τ] {c : Nfs4Client τ} {session : SessionManager} {i : Nat}

/-- The client with the slots `slots` in its session, on the transport `t`. -/
def withSlots (c : Nfs4Client τ) (session : SessionManager) (slots : SlotTable) (t : τ) :
    Nfs4Client τ where
  transport := t
  auth := c.auth
  session := some { session with slots }

/-- Without a session nothing happens. -/
theorem run_resolvePath_none (m : Build) (path : String) (h : c.session = none) :
    (resolvePath m path).run c = (.err (.nfs .noSession), c) := by
  rw [resolvePath, Action.run_bind_ok (Action.run_get c)]
  simp only [h, Action.run_lift]

/-- An allocation that panics. -/
theorem run_resolvePath_panic {m : Build} (path : String) (hsession : c.session = some session)
    (halloc : session.slots.tryAllocSlot m = none) :
    (resolvePath m path).run c = (.panic, c) := by
  have hc : { c with session := some { session with slots := session.slots } } = c := by
    rw [← hsession]
  have hrun : (Nfs4Client.tryAllocSlot m).run c = (.panic, c) := by
    simp only [Action.run, Nfs4Client.tryAllocSlot, Nfs4Client.onSlots, hsession, halloc, hc]
  rw [resolvePath, Action.run_bind_ok (Action.run_get c)]
  simp only [hsession]
  rw [Action.run_bind_panic (Action.run_mapError_panic hrun)]

/-- Without a free slot nothing is sent, and the client stays as it is. -/
theorem run_resolvePath_full {m : Build} {slots : SlotTable} (path : String)
    (hsession : c.session = some session)
    (halloc : session.slots.tryAllocSlot m = some (none, slots)) :
    (resolvePath m path).run c = (.err (.nfs .noSession), c) := by
  obtain ⟨rfl, -⟩ := SlotTable.tryAllocSlot_eq_none halloc
  have hc : { c with session := some { session with slots := session.slots } } = c := by
    rw [← hsession]
  have hrun : (Nfs4Client.tryAllocSlot m).run c = (.ok none, c) := by
    simp only [Action.run, Nfs4Client.tryAllocSlot, Nfs4Client.onSlots, hsession, halloc, hc]
  rw [resolvePath, Action.run_bind_ok (Action.run_get c)]
  simp only [hsession]
  rw [Action.run_bind_ok (Action.run_mapError_ok hrun), Action.run_lift]

/-- A compound, with its error as a value. -/
theorem run_attempt_compound (c : Nfs4Client τ) (args : Compound4args) :
    ∃ o t', (Action.attempt (Nfs4Client.compound args) :
      Action _ MountError _).run c = (.ok o, { c with transport := t' }) := by
  rcases run_compound_cases c args with ⟨res, t', -, hrun⟩ | ⟨-, e, t', hrun⟩
  · exact ⟨.ok res, t', Action.run_attempt_ok hrun⟩
  · exact ⟨.error e, t', Action.run_attempt_err hrun⟩

/-- With a slot, one compound is sent, and the slot is released whatever came of the
compound. The reply is looked at after that. -/
theorem run_resolvePath_slot {m : Build} {path : String} {slot : AllocatedSlot}
    {slots : SlotTable} {o : Except NfsError Compound4res} {t' : τ}
    (hsession : c.session = some session)
    (halloc : session.slots.tryAllocSlot m = some (some slot, slots))
    (hrun : (Action.attempt (Nfs4Client.compound
          (resolveArgs session.sessionId slot (toNfsComponents path))) :
        Action _ MountError _).run (withSlots c session slots c.transport)
      = (.ok o, withSlots c session slots t')) :
    (resolvePath m path).run c =
      match slots.releaseSlot m slot.slotId with
      | (none, slots') => (.panic, withSlots c session slots' t')
      | (some (), slots') => (propagate o >>= resolvedHandle, withSlots c session slots' t') := by
  have htake : (Nfs4Client.tryAllocSlot m).run c
      = (.ok (some slot), withSlots c session slots c.transport) := by
    simp only [Action.run, Nfs4Client.tryAllocSlot, Nfs4Client.onSlots, hsession, halloc, withSlots]
  rw [resolvePath, Action.run_bind_ok (Action.run_get c)]
  simp only [hsession]
  rw [Action.run_bind_ok (Action.run_mapError_ok htake)]
  dsimp only
  rw [Action.run_bind_ok hrun]
  -- The release comes before the `?` on the reply, and a panic in it goes through.
  rcases hslots : slots.releaseSlot m slot.slotId with ⟨_ | ⟨⟩, slots'⟩
  · have hrelease : (Nfs4Client.releaseSlot m slot.slotId).run (withSlots c session slots t')
        = (.panic, withSlots c session slots' t') := by
      simp only [Action.run, Nfs4Client.releaseSlot, Nfs4Client.onSlots, withSlots, hslots]
    rw [Action.run_bind_panic (Action.run_mapError_panic hrelease)]
  · have hrelease : (Nfs4Client.releaseSlot m slot.slotId).run (withSlots c session slots t')
        = (.ok (), withSlots c session slots' t') := by
      simp only [Action.run, Nfs4Client.releaseSlot, Nfs4Client.onSlots, withSlots, hslots]
    rw [Action.run_bind_ok (Action.run_mapError_ok hrelease)]
    cases o <;> rfl

/-- The first free slot is the one that is taken. The release panics when it overflows the
sequence id of the slot, and the slot is free behind that too. -/
theorem run_resolvePath_free (m : Build) (path : String) (hsession : c.session = some session)
    (hfree : session.slots.inUse.findIdx? (!·) = some i) :
    ∃ slot, slot.slotId.toNat = i ∧ session.slots.sequenceIds[i]? = some slot.sequenceId ∧
      ∀ o t', (Action.attempt (Nfs4Client.compound
            (resolveArgs session.sessionId slot (toNfsComponents path))) :
          Action _ MountError _).run (withSlots c session (session.slots.take i) c.transport)
        = (.ok o, withSlots c session (session.slots.take i) t') →
      (resolvePath m path).run c =
        match m.addU32 slot.sequenceId 1 with
        | none => (.panic, withSlots c session ((session.slots.take i).clear i) t')
        | some next =>
            (propagate o >>= resolvedHandle,
              withSlots c session ((session.slots.take i).free i next) t') := by
  obtain ⟨slot, halloc, hid, hseq, -⟩ := SlotTable.tryAllocSlot_of_some (m := m) hfree
  refine ⟨slot, hid, hseq, fun o t' hrun => ?_⟩
  have hrelease := releaseSlot_take (m := m) (SlotTable.findIdx?_eq_some hfree).1 hid hseq
  rw [run_resolvePath_slot hsession halloc hrun, hrelease]
  cases m.addU32 slot.sequenceId 1 <;> rfl

/-- A request that XDR cannot carry is not sent. -/
theorem run_compound_unfit (c : Nfs4Client τ) (sessionId : SessionId4) (slot : AllocatedSlot)
    {components : List String} (hfits : ¬ Fits components) :
    ∃ e, (Nfs4Client.compound (resolveArgs sessionId slot components)).run c
      = (.err (.xdr e), c) := by
  obtain ⟨e, henc⟩ := encode_of_not_fits sessionId slot hfits
  exact ⟨e, by simp only [Action.run, Nfs4Client.compound, henc]⟩

/-- However the release of the slot ends, the slots in use are what they were. What the
resolution returns is read from the reply, if the release does not overflow. -/
theorem run_resolvePath_inUse (m : Build) (path : String) (hsession : c.session = some session)
    (hfree : session.slots.inUse.findIdx? (!·) = some i) :
    ∃ slot, ∀ o t', (Action.attempt (Nfs4Client.compound
            (resolveArgs session.sessionId slot (toNfsComponents path))) :
          Action _ MountError _).run (withSlots c session (session.slots.take i) c.transport)
        = (.ok o, withSlots c session (session.slots.take i) t') →
      ∃ out slots, (resolvePath m path).run c = (out, withSlots c session slots t') ∧
        slots.inUse = session.slots.inUse ∧
        (Releasable m session.slots i → out = propagate o >>= resolvedHandle) := by
  obtain ⟨slot, -, hseq, hrun⟩ := run_resolvePath_free m path hsession hfree
  have hin := (SlotTable.findIdx?_eq_some hfree).2.1
  refine ⟨slot, fun o t' hcompound => ?_⟩
  have hdone := hrun o t' hcompound
  cases hnext : m.addU32 slot.sequenceId 1 with
  | none =>
      simp only [hnext] at hdone
      refine ⟨_, _, hdone, inUse_clear_take hin, fun hrelease => ?_⟩
      obtain ⟨next, hsome⟩ := addU32_of_releasable hrelease hseq
      simp [hnext] at hsome
  | some next =>
      simp only [hnext] at hdone
      exact ⟨_, _, hdone, inUse_free_take hin next, fun _ => rfl⟩

/-- A path that XDR cannot carry. Nothing is sent, and the slot is released all the same. -/
theorem run_resolvePath_unfit (m : Build) {path : String} (hsession : c.session = some session)
    (hfree : session.slots.inUse.findIdx? (!·) = some i) (hfits : ¬ Fits (toNfsComponents path)) :
    ∃ out slots, (resolvePath m path).run c = (out, withSlots c session slots c.transport) ∧
      slots.inUse = session.slots.inUse ∧
      (Releasable m session.slots i → ∃ e, out = .err (.nfs (.xdr e))) := by
  obtain ⟨slot, hrun⟩ := run_resolvePath_inUse m path hsession hfree
  obtain ⟨e, hcompound⟩ := run_compound_unfit
    (withSlots c session (session.slots.take i) c.transport) session.sessionId slot hfits
  obtain ⟨out, slots, hdone, hin, hout⟩ := hrun _ _ (Action.run_attempt_err hcompound)
  exact ⟨out, slots, hdone, hin, fun hrelease => ⟨e, hout hrelease⟩⟩

end Run

/-! ### The reply of a file server -/

section Walk

variable {Node : Type} {t : FileTree Node}

/-- What a walk returns to the caller of a resolution. -/
def walked (t : FileTree Node) (n : Node) (names : List String) : Outcome MountError NfsFh4 :=
  match t.walk n names with
  | .ok node => .ok (t.handle node)
  | .error status => .err (.nfs (.nfs status))

/-- The reply with these results. -/
def reply (results : List NfsResOp4) : Compound4res where
  status := lastStatus results
  tag := "resolve_path"
  resarray := results

/-- A value is propagated. -/
theorem propagate_ok_bind {α β : Type} (a : α) (f : α → Outcome MountError β) :
    propagate (.ok a) >>= f = f a := rfl

/-- Only the last result decides what a resolution returns. -/
theorem resolvedHandle_cons (r : NfsResOp4) {results : List NfsResOp4} (h : results ≠ []) :
    resolvedHandle (reply (r :: results)) = resolvedHandle (reply results) := by
  have hlast : (r :: results).getLast? = results.getLast? := List.getLast?_cons_of_ne_nil h
  have hstatus : lastStatus (r :: results) = lastStatus results := by
    rw [lastStatus, lastStatus, hlast]
  rw [resolvedHandle, resolvedHandle]
  simp only [reply, hstatus]
  rw [hlast]
  rfl

/-- The LOOKUPs and the GETFH at the node `n`. The induction is on the names, and each name
that is found moves the current filehandle one step on. -/
theorem resolvedHandle_walk (names : List String) (n : Node) (s : FileServer t)
    (hs : s.current = some n) :
    resolvedHandle (reply (execute s (lookups names ++ [.getFh])).1) = walked t n names := by
  induction names generalizing n s with
  | nil =>
      have hgetFh : CompoundServer.perform s .getFh = (.getFh ⟨.ok, some (t.handle n)⟩, s) := by
        show s.perform .getFh = _
        simp only [FileServer.perform, hs]
      rw [lookups, List.map_nil, List.nil_append, execute_cons_ok (by rw [hgetFh]; rfl), hgetFh]
      rfl
  | cons name names ih =>
      rw [lookups, List.map_cons, List.cons_append]
      cases hlookup : t.lookup n name with
      | ok child =>
          have hstep : CompoundServer.perform s (.lookup ⟨name⟩)
              = (.lookup .ok, { s with current := some child }) := by
            show s.perform (.lookup ⟨name⟩) = _
            simp only [FileServer.perform, hs, hlookup]
          rw [execute_cons_ok (by rw [hstep]; rfl), hstep,
            resolvedHandle_cons _ (execute_ne_nil _ (by simp))]
          have hwalk : walked t n (name :: names) = walked t child names := by
            rw [walked, FileTree.walk, List.foldlM_cons, hlookup]
            rfl
          rw [hwalk]
          exact ih child { s with current := some child } rfl
      | error st =>
          have hne := t.lookup_error_ne_ok hlookup
          have hstep : CompoundServer.perform s (.lookup ⟨name⟩) = (.lookup st, s) := by
            show s.perform (.lookup ⟨name⟩) = _
            simp only [FileServer.perform, hs, hlookup]
          have hwalk : walked t n (name :: names) = .err (.nfs (.nfs st)) := by
            rw [walked, FileTree.walk, List.foldlM_cons, hlookup]
            rfl
          -- The server stops here, and the status of the reply is that of the LOOKUP.
          rw [execute_cons_err (by rw [hstep]; exact hne), hstep, hwalk]
          show (if !st.isOk then Outcome.err (MountError.nfs (.nfs st)) else _) = _
          rw [if_pos (by simpa [NfsStat4.isOk] using hne)]

/-- The reply to the request of a resolution has the results that the server executed. -/
theorem serve_resolveArgs (s : FileServer t) (sessionId : SessionId4) (slot : AllocatedSlot)
    (names : List String) :
    (serve s (resolveArgs sessionId slot names)).1
      = reply (execute (CompoundServer.start s)
          (resolveArgs sessionId slot names).argarray).1 := by
  have htag : (resolveArgs sessionId slot names).tag = "resolve_path" := by rw [resolveArgs_eq]
  rw [serve, reply, htag]

/-- The whole request of a resolution. -/
theorem resolvedHandle_serve (s : FileServer t) (sessionId : SessionId4) (slot : AllocatedSlot)
    (names : List String) :
    resolvedHandle (serve s (resolveArgs sessionId slot names)).1 = walked t t.root names := by
  rw [serve_resolveArgs, resolveArgs_eq]
  rw [execute_cons_ok (by rfl), resolvedHandle_cons _ (execute_ne_nil _ (by simp)),
    execute_cons_ok (by rfl), resolvedHandle_cons _ (execute_ne_nil _ (by simp))]
  exact resolvedHandle_walk names t.root _ rfl

/-! ### Resolutions -/

/-- A compound of a client of a server, with the turns on record. -/
theorem run_compound_wire {S : Type} [CompoundServer S] (c : Nfs4Client (Wire (Served S)))
    {args : Compound4args} {bytes : Bytes} (h : encode args = .ok bytes) :
    ∃ t', (Nfs4Client.compound args).run c
      = (.ok (serve c.transport.inner.state args).1, { c with transport := t' }) := by
  obtain ⟨response, data, hcall, hstatus, hdec⟩ :=
    call_served c.transport.inner.state (c := compoundCall c.auth bytes) h
  have hturn : RpcTransport.call c.transport (compoundCall c.auth bytes)
      = (.ok response, ⟨⟨(serve c.transport.inner.state args).2⟩,
          c.transport.turns ++ [⟨compoundCall c.auth bytes, .ok response⟩]⟩) := by
    have hinner : RpcTransport.call c.transport.inner (compoundCall c.auth bytes) = _ := hcall
    simp only [RpcTransport.call] at hinner ⊢
    rw [hinner]
  refine ⟨⟨⟨(serve c.transport.inner.state args).2⟩,
    c.transport.turns ++ [⟨compoundCall c.auth bytes, .ok response⟩]⟩, ?_⟩
  simp only [Action.run, Nfs4Client.compound, h, hturn, readResponse, hstatus, hdec]

variable {c : Nfs4Client (Wire (Served (FileServer t)))} {session : SessionManager} {i : Nat}

/-- A path that XDR can carry. The server reads the request, and the client its reply. -/
theorem run_resolvePath_served (m : Build) {path : String} (hsession : c.session = some session)
    (hfree : session.slots.inUse.findIdx? (!·) = some i) (hfits : Fits (toNfsComponents path)) :
    ∃ out transport slots, (resolvePath m path).run c
        = (out, withSlots c session slots transport) ∧
      slots.inUse = session.slots.inUse ∧
      (Releasable m session.slots i → out = walked t t.root (toNfsComponents path)) := by
  obtain ⟨slot, hrun⟩ := run_resolvePath_inUse m path hsession hfree
  obtain ⟨bytes, henc⟩ := encode_of_fits session.sessionId slot hfits
  obtain ⟨transport, hcompound⟩ := run_compound_wire
    (withSlots c session (session.slots.take i) c.transport) henc
  obtain ⟨out, slots, hdone, hin, hout⟩ := hrun _ _ (Action.run_attempt_ok hcompound)
  rw [propagate_ok_bind, resolvedHandle_serve] at hout
  exact ⟨out, transport, slots, hdone, hin, hout⟩

/-- **Path resolution refines a tree walk.** Against a server of the tree `t`, a resolution of a
path that XDR can carry returns what the walk of its components returns: the filehandle of
the node that they lead to, or the status of the first one that leads nowhere. For another path
nothing is sent, and the call returns an XDR error. Both ask that the release of the slot does
not overflow its sequence id. In every case the slots in use are what they were. -/
theorem resolve_path_refines (m : Build) (path : String) (hsession : c.session = some session)
    (hfree : session.slots.inUse.findIdx? (!·) = some i) :
    ∃ out c' after, (resolvePath m path).run c = (out, c') ∧ c'.session = some after ∧
      after.slots.inUse = session.slots.inUse ∧
      (Fits (toNfsComponents path) → Releasable m session.slots i →
        out = walked t t.root (toNfsComponents path)) ∧
      (¬ Fits (toNfsComponents path) → c'.transport = c.transport ∧
        (Releasable m session.slots i → ∃ e, out = .err (.nfs (.xdr e)))) := by
  by_cases hfits : Fits (toNfsComponents path)
  · obtain ⟨out, transport, slots, hrun, hin, hout⟩ :=
      run_resolvePath_served m hsession hfree hfits
    exact ⟨out, _, _, hrun, rfl, hin, fun _ => hout, fun h => absurd hfits h⟩
  · obtain ⟨out, slots, hrun, hin, hout⟩ := run_resolvePath_unfit m hsession hfree hfits
    exact ⟨out, _, _, hrun, rfl, hin, fun h => absurd h hfits, fun _ => ⟨rfl, hout⟩⟩

end Walk

/-! ### A sample tree -/

/-- A directory that is its own entry under every name, but for the file "file". -/
def sampleTree : FileTree Bool where
  root := true
  handle n := ⟨[if n then 1 else 2]⟩
  length_handle_le _ := by simp
  entries n := if n then some fun name => some (name ≠ "file") else none

/-- A client with a session of one slot, whose next sequence id is `seq`. -/
def sampleClient (seq : UInt32) : Nfs4Client (Wire (Served (FileServer sampleTree))) where
  transport :=
    { inner := ⟨{
        current := none
        sequenced := fun a => ⟨a.saSessionid, a.saSequenceid, a.saSlotid, 0, 0, 0⟩
        other := ⟨fun _ => .putRootFh .serverfault, fun _ => trivial⟩ }⟩
      turns := [] }
  auth := .none
  session := some
    { sessionId := FixedOpaque.ofBytes 16 [9], clientId := ⟨5⟩, leaseTime := 90
      slots := ⟨[seq], [false], rfl, by decide⟩ }

/-- A path of one component, with `n` letters. -/
def letters (n : Nat) : String := String.ofList (List.replicate n 'a')

/-- Letters are one component. -/
theorem components_letters {n : Nat} (hn : n ≠ 0) : toNfsComponents (letters n) = [letters n] := by
  refine toNfsComponents_of_forall (fun c hc => ?_) (by simpa using hn)
  rw [List.eq_of_mem_replicate hc]
  rfl

/-- The bytes of a string, as the encoder of its characters writes them. -/
theorem stringBytes_ofList (l : List Char) :
    stringBytes (String.ofList l) = l.flatMap String.utf8EncodeChar := by
  show (List.toByteArray _).data.toList = _
  simp

/-- Letters are bytes. -/
theorem length_letters (n : Nat) : (stringBytes (letters n)).length = n := by
  rw [letters, stringBytes_ofList, List.length_flatMap, List.map_replicate,
    List.sum_replicate_nat]
  exact Nat.mul_one n

/-- Too many letters do not fit. -/
theorem not_fits_letters {n : Nat} (hn : 2 ^ 32 ≤ n) : ¬ Fits (toNfsComponents (letters n)) := by
  rw [components_letters (by omega)]
  intro h
  have hlt := h.2 (letters n) List.mem_cons_self
  rw [length_letters] at hlt
  exact Nat.not_lt_of_le hn hlt

/-- In the sample tree a path of letters leads to the root, unless it can be the file. -/
theorem walked_letters {n : Nat} (hn : 4 < n) :
    walked sampleTree true (toNfsComponents (letters n)) = .ok ⟨[1]⟩ := by
  have hname : letters n ≠ "file" := by
    intro h
    have hlength := congrArg (fun s => s.toList.length) h
    simp only [letters, String.toList_ofList, List.length_replicate] at hlength
    exact absurd hlength (Nat.ne_of_gt hn)
  rw [components_letters (by omega)]
  simp [walked, FileTree.walk, FileTree.lookup, sampleTree, hname]

/-- Two calls that are not the walk: a component that is too long for XDR, and in a checked build
the release of a slot whose sequence id is at its maximum. -/
theorem resolve_path_fails :
    (walked sampleTree true (toNfsComponents (letters (2 ^ 32))) = .ok ⟨[1]⟩ ∧
      ∃ e c', (resolvePath .release (letters (2 ^ 32))).run (sampleClient 1)
        = (.err (.nfs (.xdr e)), c')) ∧
    walked sampleTree true (toNfsComponents "\\") = .ok ⟨[1]⟩ ∧
    ((resolvePath .checked "\\").run (sampleClient 0xFFFFFFFF)).1 = .panic := by
  refine ⟨⟨walked_letters (by omega), ?_⟩, ?_, ?_⟩
  · obtain ⟨out, slots, hrun, -, hout⟩ := run_resolvePath_unfit (c := sampleClient 1) .release
      rfl rfl (not_fits_letters (Nat.le_refl _))
    obtain ⟨e, rfl⟩ := hout (.inl rfl)
    exact ⟨e, _, hrun⟩
  · decide +kernel
  · decide +kernel

/-- A path that leads through a file. -/
theorem resolve_path_refines_sample :
    ∃ c' after, (resolvePath .checked "\\docs\\file/x").run (sampleClient 1)
        = (.err (.nfs (.nfs .notdir)), c') ∧
      c'.session = some after ∧ after.slots.inUse = [false] := by
  have hcomponents : toNfsComponents "\\docs\\file/x" = ["docs", "file", "x"] := by
    decide +kernel
  have hfits : Fits (toNfsComponents "\\docs\\file/x") := by
    rw [hcomponents]
    exact ⟨by decide, by decide +kernel⟩
  obtain ⟨out, c', after, hrun, hafter, hin, hout, -⟩ :=
    resolve_path_refines (c := sampleClient 1) .checked "\\docs\\file/x" rfl rfl
  rw [hout hfits (.inr (by decide)), hcomponents] at hrun
  exact ⟨c', after, hrun, hafter, hin⟩

end NfsMount.Mount
