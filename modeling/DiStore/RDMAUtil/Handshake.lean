import DiStore.RDMAUtil.Certificate
import Mathlib.Logic.Function.Basic

/-!
Contract: two sides that connect their queue pairs over a socket.

Owns: `default_connect` on both sides as steps in any order, short writes and reads, and that whoever
gets a queue pair ready has connected it to the context at the other end of its socket.

Does not own: which sockets there are (`Cluster.BringUp`). A `read` brings any bytes that have been
written and not read, or none: nothing has come to the socket of the memory node, which does not
block, or there is an error, or the other side has closed.
-/

set_option autoImplicit false

namespace DiStore.RDMAUtil

/-- The ends of a socket. -/
inductive Role where
  | computeNode
  | memoryNode
deriving DecidableEq

def Role.other : Role → Role
  | .computeNode => .memoryNode
  | .memoryNode => .computeNode

@[simp] theorem Role.other_other (role : Role) : role.other.other = role := by cases role <;> rfl

theorem Role.other_ne (role : Role) : role.other ≠ role := by cases role <;> decide

theorem Role.eq_other {role another : Role} (differ : another ≠ role) : another = role.other := by
  cases role <;> cases another <;> first | rfl | exact absurd rfl differ

/-- How far a side is: the socket is there, `open` is done, the certificate is written, the other's is
read, or `default_connect` has returned. -/
inductive Phase where
  | accepted
  | opened
  | written
  | exchanged
  | returned (result : Int)
deriving DecidableEq

/-- `default_connect` returns -1 when a half of the exchange fails. -/
def Phase.unlessFailed (status : Status) (phase : Phase) : Phase := if status = .ok then phase else .returned (-1)

theorem Phase.unlessFailed_cases (status : Status) (phase : Phase) :
    unlessFailed status phase = phase ∨ unlessFailed status phase = .returned (-1) := by
  unfold unlessFailed
  split
  next => exact Or.inl rfl
  next => exact Or.inr rfl

structure Endpoint where
  phase : Phase
  context : RDMAContext

namespace Endpoint

/-- Nothing has been written. -/
def Silent (endpoint : Endpoint) : Prop := endpoint.phase = .accepted ∨ endpoint.phase = .opened

theorem not_silent_of_eq {endpoint : Endpoint} {phase : Phase} (isPhase : endpoint.phase = phase)
    (notSilent : phase ≠ .accepted ∧ phase ≠ .opened) : ¬ endpoint.Silent := by
  rintro (isAccepted | isOpened)
  · exact notSilent.1 (isPhase.symm.trans isAccepted)
  · exact notSilent.2 (isPhase.symm.trans isOpened)

theorem not_silent_unlessFailed {phase : Phase} (status : Status) (context : RDMAContext)
    (notSilent : phase ≠ .accepted ∧ phase ≠ .opened) :
    ¬ (Endpoint.mk (.unlessFailed status phase) context).Silent := by
  rcases Phase.unlessFailed_cases status phase with isPhase | isReturned
  · exact not_silent_of_eq isPhase notSilent
  · exact not_silent_of_eq isReturned (by decide)

/-- The read of the exchange is still to come. -/
def Unread (endpoint : Endpoint) : Prop := endpoint.Silent ∨ endpoint.phase = .written

theorem not_unread_of_eq {endpoint : Endpoint} {phase : Phase} (isPhase : endpoint.phase = phase)
    (notSilent : phase ≠ .accepted ∧ phase ≠ .opened) (notWritten : phase ≠ .written) : ¬ endpoint.Unread := by
  rintro (isSilent | isWritten)
  · exact not_silent_of_eq isPhase notSilent isSilent
  · exact notWritten (isPhase.symm.trans isWritten)

end Endpoint

/-- A socket, with the bytes that each side has not read. -/
structure Link where
  endpoint : Role → Endpoint
  incoming : Role → Str

namespace Link

def start : Link where
  endpoint _ := ⟨.accepted, .opened RDMAContext.zeroCertificate 0⟩
  incoming _ := []

variable (link : Link) (role : Role)

def setEndpoint (endpoint : Endpoint) : Link :=
  { link with endpoint := Function.update link.endpoint role endpoint }

/-- The first half of `exchange_certificate`: `write` takes some bytes of the certificate. -/
def write (taken : Nat) : Link where
  endpoint := Function.update link.endpoint role
    { link.endpoint role with phase := .unlessFailed (RDMAContext.writeStatus taken) .written }
  incoming := Function.update link.incoming role.other
    (link.incoming role.other ++ (link.endpoint role).context.toWrite.take taken)

/-- The second half. -/
def read (received rest : Str) : Link where
  endpoint := Function.update link.endpoint role
    ⟨.unlessFailed ((link.endpoint role).context.readCertificate received).1 .exchanged,
      ((link.endpoint role).context.readCertificate received).2⟩
  incoming := Function.update link.incoming role rest

/-- `default_get_qp_ready`, whose result `default_connect` returns. -/
def ready (toInit toRtr toRts : Int) : Link :=
  link.setEndpoint role
    ⟨.returned ((link.endpoint role).context.defaultGetQpReady toInit toRtr toRts).1,
      ((link.endpoint role).context.defaultGetQpReady toInit toRtr toRts).2⟩

/-- The next step of either side. A memory node registers its memory, which is at `base`. -/
inductive Step (base : BitVec 64) : Link → Link → Prop where
  | open {link : Link} (role : Role) (certificate : ConnectionCertificate) (gidIdx : Int)
      (isAccepted : (link.endpoint role).phase = .accepted)
      (registers : role = .memoryNode → certificate.addr = base) :
      Step base link (link.setEndpoint role ⟨.opened, .opened certificate gidIdx⟩)
  | write {link : Link} (role : Role) (taken : Nat) (isOpened : (link.endpoint role).phase = .opened) :
      Step base link (link.write role taken)
  | read {link : Link} (role : Role) (received rest : Str) (isWritten : (link.endpoint role).phase = .written)
      (isIncoming : link.incoming role = received ++ rest) : Step base link (link.read role received rest)
  | ready {link : Link} (role : Role) (toInit toRtr toRts : Int)
      (isExchanged : (link.endpoint role).phase = .exchanged) :
      Step base link (link.ready role toInit toRtr toRts)

end Link

/-! ### What a side knows -/

/-- What one side knows of the other, and the bytes between them. -/
structure Informed (own other : Endpoint) (incoming : Str) : Prop where
  bytes : own.Unread → incoming <+: other.context.toWrite ∧ (other.Silent → incoming = [])
  known : own.phase = .exchanged ∨ own.context.qp ≠ .reset →
    own.context.remote = other.context.localCertificate ∧ ¬ other.Silent
  waiting : own.Unread ∨ own.phase = .exchanged → own.context.qp = .reset
  peer : ∀ peer, own.context.qp = .readyToReceive peer ∨ own.context.qp = .readyToSend peer →
    peer = .ofCertificate own.context.remote own.context.gidIdx
  ready : own.phase = .returned 0 → ∃ peer, own.context.qp = .readyToSend peer

namespace Informed

variable {own other : Endpoint} {incoming : Str}

/-- A side whose queue pair nothing has touched. -/
theorem of_reset {after : Endpoint} (isReset : after.context.qp = .reset)
    (bytes : after.Unread → incoming <+: other.context.toWrite ∧ (other.Silent → incoming = []))
    (notExchanged : after.phase ≠ .exchanged) (notReady : after.phase ≠ .returned 0) :
    Informed after other incoming where
  bytes := bytes
  known isKnown := by
    rcases isKnown with isExchanged | notReset
    · exact absurd isExchanged notExchanged
    · exact absurd isReset notReset
  waiting _ := isReset
  peer address isPeer := by
    rw [isReset] at isPeer
    rcases isPeer with isPeer | isPeer <;> cases isPeer
  ready isReady := absurd isReady notReady

theorem start : Informed (Link.start.endpoint .computeNode) (Link.start.endpoint .memoryNode) [] := by
  apply of_reset rfl
  · exact fun _ => ⟨List.nil_prefix, fun _ => rfl⟩
  · intro isExchanged
    cases isExchanged
  · intro isReady
    cases isReady

theorem opens (informed : Informed own other incoming) (isAccepted : own.phase = .accepted)
    (certificate : ConnectionCertificate) (gidIdx : Int) :
    Informed ⟨.opened, .opened certificate gidIdx⟩ other incoming := by
  apply of_reset rfl
  · exact fun _ => informed.bytes (Or.inl (Or.inl isAccepted))
  · intro isExchanged
    cases isExchanged
  · intro isReady
    cases isReady

/-- The other side opens its context: it has written nothing, so nothing is known. -/
theorem other_opens (informed : Informed own other incoming) (isAccepted : other.phase = .accepted)
    (certificate : ConnectionCertificate) (gidIdx : Int) :
    Informed own ⟨.opened, .opened certificate gidIdx⟩ incoming where
  bytes isUnread := by
    rw [(informed.bytes isUnread).2 (Or.inl isAccepted)]
    exact ⟨List.nil_prefix, fun _ => rfl⟩
  known isKnown := absurd (Or.inl isAccepted) (informed.known isKnown).2
  waiting := informed.waiting
  peer := informed.peer
  ready := informed.ready

theorem writes (informed : Informed own other incoming) (isOpened : own.phase = .opened) (status : Status) :
    Informed { own with phase := .unlessFailed status .written } other incoming := by
  have isPhase := Phase.unlessFailed_cases status .written
  have isUnread : own.Unread := Or.inl (Or.inr isOpened)
  apply of_reset
  · exact informed.waiting (Or.inl isUnread)
  · exact fun _ => informed.bytes isUnread
  · intro isExchanged
    rcases isPhase with isWritten | isReturned
    · cases isWritten.symm.trans isExchanged
    · cases isReturned.symm.trans isExchanged
  · intro isReady
    rcases isPhase with isWritten | isReturned
    · cases isWritten.symm.trans isReady
    · cases isReturned.symm.trans isReady

theorem other_writes (informed : Informed own other incoming) (isOpened : other.phase = .opened) (status : Status)
    (taken : Nat) :
    Informed own { other with phase := .unlessFailed status .written }
      (incoming ++ other.context.toWrite.take taken) where
  bytes isUnread := by
    rw [(informed.bytes isUnread).2 (Or.inr isOpened), List.nil_append]
    exact ⟨List.take_prefix _ _, fun isSilent => absurd isSilent (Endpoint.not_silent_unlessFailed _ _ (by decide))⟩
  known isKnown := absurd (Or.inr isOpened) (informed.known isKnown).2
  waiting := informed.waiting
  peer := informed.peer
  ready := informed.ready

/-- The other side moves on behind its write. -/
theorem other_moves (informed : Informed own other incoming) {after : Endpoint} (notSilent : ¬ after.Silent)
    (sameOwn : after.context.localCertificate = other.context.localCertificate) :
    Informed own after incoming where
  bytes isUnread := by
    unfold RDMAContext.toWrite
    rw [sameOwn]
    exact ⟨(informed.bytes isUnread).1, fun isSilent => absurd isSilent notSilent⟩
  known isKnown := by
    rw [sameOwn]
    exact ⟨(informed.known isKnown).1, notSilent⟩
  waiting := informed.waiting
  peer := informed.peer
  ready := informed.ready

/-- **A whole certificate is the one of the other side**: the bytes between them are a prefix of it. -/
theorem whole (informed : Informed own other incoming) (isWritten : own.phase = .written) {received rest : Str}
    (isIncoming : incoming = received ++ rest) (isWhole : received.length = certificateSize) :
    received = other.context.toWrite ∧ ¬ other.Silent := by
  obtain ⟨isPrefix, silent⟩ := informed.bytes (Or.inr isWritten)
  rw [isIncoming] at isPrefix silent
  constructor
  · apply (List.prefix_of_prefix_length_le ((List.prefix_append received rest).trans isPrefix)
      (List.prefix_refl _) _).eq_of_length
    · rw [isWhole, RDMAContext.length_toWrite]
    · rw [isWhole, RDMAContext.length_toWrite]
  · intro isSilent
    have empty := (List.append_eq_nil_iff.mp (silent isSilent)).1
    rw [empty] at isWhole
    cases isWhole

theorem reads (informed : Informed own other incoming) (isWritten : own.phase = .written) {received rest : Str}
    (isIncoming : incoming = received ++ rest) :
    Informed ⟨.unlessFailed (own.context.readCertificate received).1 .exchanged,
      (own.context.readCertificate received).2⟩ other rest := by
  have isReset := informed.waiting (Or.inl (Or.inr isWritten))
  by_cases isWhole : received.length = certificateSize
  · obtain ⟨isCertificate, notSilent⟩ := informed.whole isWritten isIncoming isWhole
    rw [isCertificate, RDMAContext.readCertificate_toWrite]
    unfold Phase.unlessFailed
    rw [if_pos rfl]
    refine ⟨fun isUnread => ?_, fun _ => ⟨rfl, notSilent⟩, fun _ => isReset, fun address isPeer => ?_, fun isReady => ?_⟩
    · exact absurd isUnread (Endpoint.not_unread_of_eq rfl ⟨by nofun, by nofun⟩ (by nofun))
    · rw [isReset] at isPeer
      rcases isPeer with isPeer | isPeer <;> cases isPeer
    · cases isReady
  · have isError : own.context.readCertificate received = (.readError, own.context) := by
      unfold RDMAContext.readCertificate
      rw [dif_neg isWhole]
    have notOk : ¬ Status.readError = .ok := by decide
    rw [isError]
    unfold Phase.unlessFailed
    rw [if_neg notOk]
    apply of_reset
    · exact isReset
    · exact fun isUnread => absurd isUnread (Endpoint.not_unread_of_eq rfl ⟨by nofun, by nofun⟩ (by nofun))
    · intro isExchanged
      cases isExchanged
    · intro isReady
      cases isReady

/-- What `default_get_qp_ready` makes of a context. -/
theorem readies (informed : Informed own other incoming) (isExchanged : own.phase = .exchanged)
    (toInit toRtr toRts : Int) :
    Informed ⟨.returned (own.context.defaultGetQpReady toInit toRtr toRts).1,
      (own.context.defaultGetQpReady toInit toRtr toRts).2⟩ other incoming := by
  obtain ⟨isRemote, notSilent⟩ := informed.known (Or.inl isExchanged)
  have isReset := informed.waiting (Or.inr isExchanged)
  have notWaiting : ∀ result context, ¬ (Endpoint.mk (.returned result) context).Unread :=
    fun result context => Endpoint.not_unread_of_eq rfl ⟨by nofun, by nofun⟩ (by nofun)
  have built : ∀ (result : Int) (qp : QueuePair),
      (∀ peer, qp = .readyToReceive peer ∨ qp = .readyToSend peer →
        peer = .ofCertificate own.context.remote own.context.gidIdx) →
      (result = 0 → ∃ peer, qp = .readyToSend peer) →
      Informed ⟨.returned result, { own.context with qp := qp }⟩ other incoming := by
    intro result qp isPeer isReady
    refine ⟨fun isUnread => absurd isUnread (notWaiting _ _), fun _ => ⟨isRemote, notSilent⟩, fun isWaiting => ?_,
      isPeer, fun isZero => isReady (Phase.returned.inj isZero)⟩
    rcases isWaiting with isUnread | isExchanged
    · exact absurd isUnread (notWaiting _ _)
    · cases isExchanged
  unfold RDMAContext.defaultGetQpReady
  by_cases initFails : toInit ≠ 0
  · rw [if_pos initFails]
    refine built toInit own.context.qp (fun peer isPeer => ?_) (fun isZero => absurd isZero initFails)
    rw [isReset] at isPeer
    rcases isPeer with isPeer | isPeer <;> cases isPeer
  rw [if_neg initFails]
  by_cases rtrFails : toRtr ≠ 0
  · rw [if_pos rtrFails]
    refine built toRtr .init (fun peer isPeer => ?_) (fun isZero => absurd isZero rtrFails)
    rcases isPeer with isPeer | isPeer <;> cases isPeer
  rw [if_neg rtrFails]
  by_cases rtsFails : toRts ≠ 0
  · rw [if_pos rtsFails]
    refine built toRts (.readyToReceive _) (fun peer isPeer => ?_) (fun isZero => absurd isZero rtsFails)
    rcases isPeer with isPeer | isPeer
    · exact (QueuePair.readyToReceive.inj isPeer).symm
    · cases isPeer
  · rw [if_neg rtsFails]
    refine built 0 (.readyToSend _) (fun peer isPeer => ?_) (fun _ => ⟨_, rfl⟩)
    rcases isPeer with isPeer | isPeer
    · cases isPeer
    · exact (QueuePair.readyToSend.inj isPeer).symm

end Informed

/-! ### Runs -/

namespace Link

variable {base : BitVec 64} {link next : Link}

/-- The two sides in any state of a run. -/
structure Sound (base : BitVec 64) (link : Link) : Prop where
  informed : ∀ role, Informed (link.endpoint role) (link.endpoint role.other) (link.incoming role)
  registered : (link.endpoint .memoryNode).phase ≠ .accepted →
    (link.endpoint .memoryNode).context.localCertificate.addr = base

theorem sound_start : Sound base start where
  informed role := by cases role <;> exact Informed.start
  registered notAccepted := absurd rfl notAccepted

/-- A step of one side, for that side and for the other one. -/
theorem Sound.moves (sound : Sound base link) (role : Role) {after : Endpoint} {incoming : Role → Str}
    (own : Informed after (link.endpoint role.other) (incoming role))
    (others : Informed (link.endpoint role.other) after (incoming role.other))
    (registers : role = .memoryNode → after.context.localCertificate.addr = base) :
    Sound base ⟨Function.update link.endpoint role after, incoming⟩ := by
  have acts : Function.update link.endpoint role after role = after := Function.update_self _ _ _
  have waits : Function.update link.endpoint role after role.other = link.endpoint role.other :=
    Function.update_of_ne role.other_ne _ _
  constructor
  · intro another
    by_cases isRole : another = role
    · rw [isRole]
      simp only [acts, waits]
      exact own
    · rw [Role.eq_other isRole]
      simp only [acts, waits, Role.other_other]
      exact others
  · intro notAccepted
    by_cases isRole : role = .memoryNode
    · rw [← isRole]
      simp only [acts]
      exact registers isRole
    · have isOther : Role.memoryNode = role.other := Role.eq_other (Ne.symm isRole)
      rw [isOther] at notAccepted ⊢
      simp only [waits] at notAccepted ⊢
      rw [← isOther] at notAccepted ⊢
      exact sound.registered notAccepted

theorem Sound.from_other (sound : Sound base link) (role : Role) :
    Informed (link.endpoint role.other) (link.endpoint role) (link.incoming role.other) := by
  have informed := sound.informed role.other
  rw [Role.other_other] at informed
  exact informed

/-- The memory that the acting side registered when it opened its context. -/
theorem Sound.registers (sound : Sound base link) (role : Role) (notAccepted : (link.endpoint role).phase ≠ .accepted) :
    role = .memoryNode → (link.endpoint role).context.localCertificate.addr = base := by
  intro isNode
  rw [isNode] at notAccepted ⊢
  exact sound.registered notAccepted

theorem localCertificate_read (context : RDMAContext) (received : Str) :
    (context.readCertificate received).2.localCertificate = context.localCertificate := by
  unfold RDMAContext.readCertificate
  split
  next => rfl
  next => rfl

theorem localCertificate_ready (context : RDMAContext) (toInit toRtr toRts : Int) :
    (context.defaultGetQpReady toInit toRtr toRts).2.localCertificate = context.localCertificate := by
  unfold RDMAContext.defaultGetQpReady
  split
  next => rfl
  next =>
    split
    next => rfl
    next =>
      split
      next => rfl
      next => rfl

theorem Sound.step (sound : Sound base link) (step : Step base link next) : Sound base next := by
  cases step with
  | «open» role certificate gidIdx isAccepted registers =>
    exact sound.moves role ((sound.informed role).opens isAccepted certificate gidIdx)
      ((sound.from_other role).other_opens isAccepted certificate gidIdx) registers
  | write role taken isOpened =>
    apply sound.moves role
    · rw [Function.update_of_ne role.other_ne.symm]
      exact (sound.informed role).writes isOpened _
    · rw [Function.update_self]
      exact (sound.from_other role).other_writes isOpened _ taken
    · apply sound.registers role
      rw [isOpened]
      decide
  | read role received rest isWritten isIncoming =>
    unfold Link.read
    apply sound.moves role
    · rw [Function.update_self]
      exact (sound.informed role).reads isWritten isIncoming
    · rw [Function.update_of_ne role.other_ne]
      apply (sound.from_other role).other_moves
      · exact Endpoint.not_silent_unlessFailed _ _ (by decide)
      · exact localCertificate_read _ _
    · rw [localCertificate_read]
      apply sound.registers role
      rw [isWritten]
      decide
  | ready role toInit toRtr toRts isExchanged =>
    unfold Link.ready setEndpoint
    apply sound.moves role
    · exact (sound.informed role).readies isExchanged toInit toRtr toRts
    · apply (sound.from_other role).other_moves
      · exact Endpoint.not_silent_of_eq rfl ⟨by nofun, by nofun⟩
      · exact localCertificate_ready _ _ _ _
    · rw [localCertificate_ready]
      apply sound.registers role
      rw [isExchanged]
      decide

/-- A side that has returned does nothing more. -/
theorem Step.stays_returned (step : Step base link next) {role : Role} {result : Int}
    (isReturned : (link.endpoint role).phase = .returned result) :
    (next.endpoint role).phase = .returned result := by
  have stays : ∀ (acting : Role) (after : Endpoint) (phase : Phase), (link.endpoint acting).phase = phase →
      phase ≠ .returned result → (Function.update link.endpoint acting after role).phase = .returned result := by
    intro acting after phase isPhase notReturned
    have isOther : role ≠ acting := by
      intro isActing
      rw [isActing, isPhase] at isReturned
      exact notReturned isReturned
    rw [Function.update_of_ne isOther]
    exact isReturned
  cases step with
  | «open» acting certificate gidIdx isAccepted registers => exact stays acting _ .accepted isAccepted (by nofun)
  | write acting taken isOpened => exact stays acting _ .opened isOpened (by nofun)
  | read acting received rest isWritten isIncoming => exact stays acting _ .written isWritten (by nofun)
  | ready acting toInit toRtr toRts isExchanged => exact stays acting _ .exchanged isExchanged (by nofun)

/-- A side whose `default_connect` has returned zero is connected to the context that the other side
opened for this socket. -/
structure Connected (own other : RDMAContext) : Prop where
  remote : own.remote = other.localCertificate
  qp : own.qp = .readyToSend (.ofCertificate other.localCertificate own.gidIdx)

theorem Sound.connected (sound : Sound base link) (role : Role)
    (isReturned : (link.endpoint role).phase = .returned 0) :
    Connected (link.endpoint role).context (link.endpoint role.other).context ∧
      ¬ (link.endpoint role.other).Silent := by
  have informed := sound.informed role
  obtain ⟨peer, isReady⟩ := informed.ready isReturned
  have notReset : (link.endpoint role).context.qp ≠ .reset := by
    rw [isReady]
    intro isReset
    cases isReset
  obtain ⟨isRemote, notSilent⟩ := informed.known (Or.inr notReset)
  refine ⟨⟨isRemote, ?_⟩, notSilent⟩
  rw [isReady, informed.peer peer (Or.inr isReady), isRemote]

end Link

end DiStore.RDMAUtil
