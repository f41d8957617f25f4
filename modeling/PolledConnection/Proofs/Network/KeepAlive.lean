import PolledConnection.Network.Dial
import PolledConnection.Network.Mailbox

/-! # The keepalive switch of a socket

  A network has its own idea of the switch of the socket that was created last.
  It keeps the switch if a new socket has it off, setting it takes effect or
  fails without effect, and nothing else touches it (`Keeps`). Then the network
  and the record of the socket agree (`Network.Keeps.pollConnect`): what is
  known of the record is true of the network.

  A mailbox keeps the switch, also one whose connects are settled right after
  they were asked about (`Mailbox.prompt`).
-/

namespace PolledConnection

variable {ω : Type}

namespace Network

/-- The network keeps the switch of its socket. -/
structure Keeps (net : Network ω) (isOn : ω → Bool) : Prop where
  /-- A new socket has it off. -/
  create : ∀ w, (net.create w).1 = .ok () → isOn (net.create w).2 = false
  /-- Setting it takes effect. -/
  sets : ∀ on w, (net.setKeepAlive on w).1 = .ok () → isOn (net.setKeepAlive on w).2 = on
  /-- Or it fails without effect. -/
  refuses : ∀ on w cause, (net.setKeepAlive on w).1 = .error cause →
    isOn (net.setKeepAlive on w).2 = isOn w
  connect : ∀ peer w, isOn (net.connect peer w).2 = isOn w
  isConnected : ∀ w, isOn (net.isConnected w).2 = isOn w
  receive : ∀ limit w, isOn (net.receive limit w).2 = isOn w
  send : ∀ bytes w, isOn (net.send bytes w).2 = isOn w

/-- The network never refuses to set the switch. -/
def Obliging (net : Network ω) : Prop := ∀ on w, (net.setKeepAlive on w).1 = .ok ()

section
variable {net : Network ω} {isOn : ω → Bool} {slot socket : Option Socket} {peer : Address}
  {keepAlive : Bool} {w w' : ω} {effects : List Effect}

/-- The socket that was dialled is the one that was asked for. -/
theorem dial_socket {s : Socket} {note : Option Note}
    (h : net.dial peer keepAlive w = (.ok s, note, w')) : s = ⟨peer, keepAlive⟩ := by
  unfold dial at h
  grind

/-- A socket that was dialled has its switch as it was asked for. -/
theorem Keeps.dial (keeps : net.Keeps isOn) {s : Socket} {note : Option Note}
    (h : net.dial peer keepAlive w = (.ok s, note, w')) : isOn w' = keepAlive := by
  unfold Network.dial at h
  rcases hc : net.create w with ⟨_ | _, w₁⟩
  · simp [hc] at h
  have off : isOn w₁ = false := by simpa [hc] using keeps.create w
  -- The switch is off now; it is set only to turn it on.
  obtain ⟨w₂, set, switched⟩ : ∃ w₂, isOn w₂ = keepAlive ∧
      (if keepAlive then net.setKeepAlive true w₁ else (.ok (), w₁)) = (.ok (), w₂) := by
    cases keepAlive with
    | false => exact ⟨w₁, off, rfl⟩
    | true =>
      rcases hk : net.setKeepAlive true w₁ with ⟨_ | _, w₂⟩
      · simp [hc, hk] at h
      · exact ⟨w₂, by simpa [hk] using keeps.sets true w₁, by simp⟩
  rcases hp : net.connect peer w₂ with ⟨_ | _, w₃⟩
  · simp [hc, switched, hp] at h
  have same : isOn w₃ = isOn w₂ := by simpa [hp] using keeps.connect peer w₂
  have last : w₃ = w' := by
    simp [hc, switched, hp] at h
    exact h.2.2
  rw [← last, same, set]

/-- Behind a poll of a connect that did not fail, the socket is there. -/
theorem pollConnect_slot {connected : Bool}
    (h : (net.pollConnect slot peer keepAlive).run w = ⟨(.ok connected, socket), w', effects⟩) :
    ∃ s, socket = some s ∧ (slot = some s ∨ slot = none ∧ s = ⟨peer, keepAlive⟩) := by
  cases slot with
  | some s =>
    have same : some s = socket := by
      simpa [Network.pollConnect] using congrArg (fun o => o.answer.2) h
    exact ⟨s, same.symm, .inl rfl⟩
  | none =>
    have polled := congrArg (fun o => o.answer) h
    rcases hd : net.dial peer keepAlive w with ⟨_ | s, note, w₁⟩
    · simp [Network.pollConnect, hd] at polled
    · have same : some s = socket := by
        simpa [Network.pollConnect, hd] using congrArg Prod.snd polled
      exact ⟨s, same.symm, .inr ⟨rfl, dial_socket hd⟩⟩

/-- **Step**: where network and socket agree before a poll of a connect, they agree behind it. -/
theorem Keeps.pollConnect (keeps : net.Keeps isOn) {answer : Except Fault Bool}
    (agree : ∀ s, slot = some s → isOn w = s.keepAlive)
    (h : (net.pollConnect slot peer keepAlive).run w = ⟨(answer, socket), w', effects⟩) :
    ∀ s, socket = some s → isOn w' = s.keepAlive := by
  intro s hs
  subst hs
  cases slot with
  | some old =>
    obtain ⟨same, asked⟩ : old = s ∧ (net.isConnected w).2 = w' := by
      have answers := congrArg (fun o => (o.answer.2, o.state)) h
      simpa [Network.pollConnect] using answers
    rw [← asked, keeps.isConnected, agree old rfl, same]
  | none =>
    have answers := congrArg (fun o => (o.answer.2, o.state)) h
    rcases hd : net.dial peer keepAlive w with ⟨_ | new, note, w₁⟩
    · simp [Network.pollConnect, hd] at answers
    · obtain ⟨same, asked⟩ : new = s ∧ (net.isConnected w₁).2 = w' := by
        simpa [Network.pollConnect, hd] using answers
      rw [← asked, keeps.isConnected, keeps.dial hd, ← same, dial_socket hd]

end

end Network

/-! ### Mailboxes -/

namespace Mailbox

/-- A network of mailboxes in which a connect is settled right after it was asked about. -/
def prompt : Network Mailbox :=
  { network with peer := fun m => (m.peer, m.settle (.ok ())) }

theorem keepAlive_read (limit : Nat) (m : Mailbox) : (read limit m).2.keepAlive = m.keepAlive := by
  unfold read
  split
  · split <;> rfl
  · rfl

theorem keepAlive_write (bytes : Bytes) (m : Mailbox) :
    (write bytes m).2.keepAlive = m.keepAlive := by
  unfold write
  split <;> rfl

theorem keepAlive_settle (result : Except IoFault Unit) (m : Mailbox) :
    (m.settle result).keepAlive = m.keepAlive := by
  unfold settle
  split <;> rfl

/-- A mailbox keeps the switch. -/
theorem network_keeps : network.Keeps Mailbox.keepAlive where
  create m _ := rfl
  sets on m _ := rfl
  refuses on m cause h := by simp [network] at h
  connect peer m := by rw [Network.connect_after]; rfl
  isConnected m := by rcases Network.isConnected_after network m with h | h <;> rw [h] <;> rfl
  receive limit m := by rw [Network.receive_after]; exact keepAlive_read limit m
  send bytes m := by rw [Network.send_after]; exact keepAlive_write bytes m

theorem prompt_keeps : prompt.Keeps Mailbox.keepAlive :=
  { network_keeps with
    isConnected := fun m => by
      rcases Network.isConnected_after prompt m with h | h
      · rw [h]
        rfl
      · rw [h]
        exact keepAlive_settle (.ok ()) m }

end Mailbox

end PolledConnection
