import PolledConnection.Proofs.Connection.Phases
import PolledConnection.Proofs.Connection.Refusal
import PolledConnection.Proofs.Tls.Lifecycle
import PolledConnection.Tcp.Transport

/-! # When bytes are handed out

  All transports hand out bytes only while they are read (`deliversInReads`).
  An act that never does is made of acts that never do (`Act.Hushed`), so this
  follows the text of each operation.

  A TCP transport hands them only to a receiver that it was given in an open
  (`Tcp.loyal`).
-/

namespace PolledConnection

variable {ε σ τ ρ ω α β : Type}

/-! ### Acts that hand out nothing -/

namespace Act.Hushed

theorem pure (a : α) : (Pure.pure a : Act Effect σ α).Hushed := by simp [Hushed]

theorem get : (Act.get : Act Effect σ σ).Hushed := by simp [Hushed]

theorem put (s : σ) : (Act.put s : Act Effect σ Unit).Hushed := by simp [Hushed]

theorem modify (f : σ → σ) : (Act.modify f : Act Effect σ Unit).Hushed := by simp [Hushed]

theorem emit {e : Effect} (h : e.isReceipt = false) : (Act.emit e : Act Effect σ Unit).Hushed := by
  intro s x hx
  rw [List.mem_singleton.mp hx, h]

theorem notes (notes : List Note) : (Act.emitAll (notes.map .note) : Act Effect σ Unit).Hushed := by
  simp [Hushed, Effect.isReceipt]

theorem bind {m : Act Effect σ α} {f : α → Act Effect σ β} (hm : m.Hushed)
    (hf : ∀ a, (f a).Hushed) : (m >>= f).Hushed := by
  intro s e he
  rcases List.mem_append.mp he with first | second
  · exact hm s e first
  · exact hf _ _ e second

theorem within {m : Act Effect σ α} (part : τ → σ) (replace : σ → τ → τ) (hm : m.Hushed) :
    (Act.within part replace id m).Hushed := by
  intro s e he
  exact hm (part s) e (by simpa using he)

/-- An act that does the same as a hushed one. -/
theorem congr {m n : Act Effect σ α} (hm : m.Hushed) (same : ∀ s, n.run s = m.run s) : n.Hushed := by
  intro s e he
  exact hm s e (by rwa [← same])

theorem ite {p : Prop} [Decidable p] {m n : Act Effect σ α} (hm : m.Hushed) (hn : n.Hushed) :
    (if p then m else n).Hushed := by
  split
  · exact hm
  · exact hn

end Act.Hushed

open Act (Hushed)

/-- Only a read hands out bytes. -/
theorem Transport.DeliversInReads.not_received {T : Transport σ} (laws : T.DeliversInReads)
    {q : Transport.Request} (hq : q ≠ .read) {t : σ} {tag : Tag} {bytes : Bytes} :
    .effect (.received tag bytes) ∉ ((T.serve q).run t).events := by
  have silent {α : Type} {m : Act Effect σ α} (hushed : m.Hushed) :
      .received tag bytes ∉ (m.run t).events := by
    intro member
    simpa [Effect.isReceipt] using hushed t _ member
  cases q with
  | establish receiver => simpa [serve, recorded] using silent (laws.establish receiver)
  | close => simpa [serve, recorded] using silent laws.close
  | read => contradiction
  | write bytes => simpa [serve, offer, recorded] using silent (laws.write bytes)
  | setOption name value => simpa [serve, unrecorded] using silent (laws.setOption name value)
  | retrieve => simp [serve]

/-! ### The network -/

theorem Network.pollConnect_hushed (net : Network ω) (slot : Option Socket) (peer : Address)
    (keepAlive : Bool) : (net.pollConnect slot peer keepAlive).Hushed := by
  unfold Network.pollConnect
  cases slot
  case' some socket => refine Hushed.bind (.pure _) fun asked => ?_
  case' none =>
    refine .bind (.emit rfl) fun _ => .bind .get fun w => .bind (.put _) fun _ =>
      .bind (.notes _) fun _ => .bind (.pure _) fun asked => ?_
  -- The socket is asked the same, whether it is new or not.
  all_goals
    cases asked with
    | error cause => exact .bind (.emit rfl) fun _ => .pure _
    | ok socket =>
      exact .bind .get fun w => .bind (.put _) fun _ => .bind (.emit rfl) fun _ => .pure _

/-! ### Lookups -/

theorem ask_hushed (res : Resolver ρ) (hostname : String) (port : UInt16) :
    (res.ask hostname port).Hushed :=
  .bind .get fun _ => .bind (.put _) fun _ => .bind (.emit rfl) fun _ => .pure _

/-! ### TLS -/

namespace Tls

namespace Layer

variable (eng : Engine ε σ)

theorem checkConsistency_hushed : (checkConsistency (σ := σ)).Hushed := by
  refine Hushed.bind .get fun l => ?_
  split
  · exact .pure _
  · exact .bind (.emit rfl) fun _ => .pure _

theorem requestSession_hushed (carrier : Carrier) (receiver : Receiver) (e : ε) :
    (requestSession eng carrier receiver e).Hushed := by
  refine Hushed.bind .get fun l => .bind (.emit rfl) fun _ => ?_
  split
  · exact .bind (.put _) fun _ => .pure _
  · exact .bind (.emit rfl) fun _ => .pure _

theorem handshake_hushed : (handshake eng).Hushed := by
  refine Hushed.bind .get fun l => ?_
  split
  · exact .pure _
  · exact .bind (.put _) fun _ => .bind (.emit rfl) fun _ => .pure _

theorem close_hushed : (close (σ := σ)).Hushed := by
  refine Hushed.bind .get fun l => ?_
  split
  · exact .put _
  · exact .bind (.put _) fun _ => .emit rfl

theorem write_hushed (bytes : Bytes) : (write eng bytes).Hushed := by
  refine Hushed.bind .get fun l => ?_
  split
  · exact .pure _
  · exact .within _ _ (.bind .get fun _ => .bind (.put _) fun _ => .bind (.emit rfl) fun _ => .pure _)

theorem setOption_hushed (name : String) (value : Setting) :
    (setOption (σ := σ) name value).Hushed := by
  refine Hushed.bind .get fun l => .bind (.put _) fun _ => ?_
  split
  · exact .pure _
  · exact .pure _
  · exact .bind (.notes _) fun _ => .pure _

end Layer

namespace OverGiven

variable (eng : Engine ε σ)

theorem onLayer_hushed {m : Act Effect (Layer σ) α} (h : m.Hushed) :
    (onLayer (ε := ε) m).Hushed :=
  .within _ _ h

theorem setStep_hushed (step : Step) : (setStep (ε := ε) (σ := σ) step).Hushed :=
  .bind .get fun _ => .bind (.emit rfl) fun _ => .put _

theorem validate_hushed : (validate (ε := ε) (σ := σ)).Hushed :=
  .bind (onLayer_hushed Layer.checkConsistency_hushed) fun _ =>
    .ite (setStep_hushed _) (setStep_hushed _)

theorem initSession_hushed (receiver : Receiver) : (initSession eng receiver).Hushed := by
  refine Hushed.bind .get fun t => ?_
  split
  · exact .pure _
  · exact .bind (.put _) fun _ => .bind (onLayer_hushed (Layer.requestSession_hushed eng _ receiver _))
      fun _ => .bind (.modify _) fun _ => .ite (.bind (setStep_hushed _) fun _ => .pure _) (.pure _)

theorem advance_hushed (receiver : Receiver) : (advance eng receiver).Hushed := by
  refine Hushed.bind .get fun t => ?_
  split
  · exact initSession_hushed eng receiver
  · exact onLayer_hushed (Layer.handshake_hushed eng)
  · exact .bind (.emit rfl) fun _ => .pure _
  all_goals exact .pure _

theorem conclude_hushed (answer : Progress) : (conclude (ε := ε) (σ := σ) answer).Hushed := by
  unfold conclude
  split
  · refine Hushed.bind (onLayer_hushed Layer.close_hushed) fun _ => .bind (.modify _) fun _ =>
      .bind .get fun t => ?_
    split
    · exact .bind (setStep_hushed _) fun _ => .pure _
    · exact .pure _
  · exact .pure _

theorem deliversInReads : (transport eng).DeliversInReads where
  establish receiver := by
    refine Hushed.congr ?_ (run_establish eng receiver)
    refine Hushed.bind .get fun t => ?_
    split
    · exact .bind validate_hushed fun _ => .bind (advance_hushed eng receiver) conclude_hushed
    · exact .bind (advance_hushed eng receiver) conclude_hushed
  close := .bind (onLayer_hushed Layer.close_hushed) fun _ => .pure _
  write bytes := onLayer_hushed (Layer.write_hushed eng bytes)
  setOption name value := onLayer_hushed (Layer.setOption_hushed name value)

end OverGiven

namespace OverTcp

variable (eng : Engine ε σ) (net : Network ω) (res : Resolver ρ)

theorem onLayer_hushed {m : Act Effect (Layer σ) α} (h : m.Hushed) :
    (onLayer (ε := ε) (ρ := ρ) (ω := ω) m).Hushed :=
  .within _ _ h

theorem setStep_hushed (step : Step) :
    (setStep (ε := ε) (σ := σ) (ρ := ρ) (ω := ω) step).Hushed :=
  .bind .get fun _ => .bind (.emit rfl) fun _ => .put _

theorem validate_hushed : (validate (ε := ε) (σ := σ) (ρ := ρ) (ω := ω)).Hushed :=
  .bind (onLayer_hushed Layer.checkConsistency_hushed) fun _ =>
    .ite (setStep_hushed _) (setStep_hushed _)

theorem pollResolve_hushed : (pollResolve (ε := ε) (σ := σ) (ω := ω) res).Hushed := by
  refine Hushed.bind .get fun t => .bind (.within _ _ (ask_hushed res _ _)) fun _ => ?_
  split
  · exact .bind (.modify _) fun _ => .bind (setStep_hushed _) fun _ => .pure _
  · exact .pure _

theorem pollConnect_hushed : (pollConnect (ε := ε) (σ := σ) (ρ := ρ) net).Hushed := by
  refine Hushed.bind .get fun t => ?_
  split
  · exact .pure _
  · refine Hushed.bind (.within _ _ (net.pollConnect_hushed _ _ _)) fun _ =>
      .bind (.modify _) fun _ => ?_
    split
    · exact .bind (setStep_hushed _) fun _ => .pure _
    · exact .pure _
    · exact .bind (.emit rfl) fun _ => .pure _

theorem initSession_hushed (receiver : Receiver) :
    (initSession (ρ := ρ) eng net receiver).Hushed := by
  refine Hushed.bind .get fun t => ?_
  split
  · exact .pure _
  · exact .bind (.put _) fun _ => .bind (onLayer_hushed (Layer.requestSession_hushed eng _ receiver _))
      fun _ => .bind (.modify _) fun _ => .ite (.bind (setStep_hushed _) fun _ => .pure _)
        (.bind (.modify _) fun _ => .pure _)

theorem close_hushed : (close (ε := ε) (σ := σ) (ρ := ρ) net).Hushed :=
  .bind (.modify _) fun _ => .bind (onLayer_hushed Layer.close_hushed) fun _ =>
    .bind (.modify _) fun _ => .pure _

theorem advance_hushed (receiver : Receiver) : (advance eng net res receiver).Hushed := by
  refine Hushed.bind .get fun t => ?_
  split
  · exact pollResolve_hushed res
  · exact pollConnect_hushed net
  · exact initSession_hushed eng net receiver
  · exact onLayer_hushed (Layer.handshake_hushed eng)
  · exact .bind (.emit rfl) fun _ => .pure _
  all_goals exact .pure _

theorem conclude_hushed (answer : Progress) :
    (conclude (ε := ε) (σ := σ) (ρ := ρ) net answer).Hushed := by
  unfold conclude
  split
  · refine Hushed.bind (close_hushed net) fun _ => .bind .get fun t => ?_
    split
    · exact .bind (setStep_hushed _) fun _ => .pure _
    · exact .pure _
  · exact .pure _

theorem setOption_hushed (name : String) (value : Setting) :
    (setOption (ε := ε) (σ := σ) (ρ := ρ) net name value).Hushed := by
  unfold setOption
  split
  · split
    · exact .pure _
    · refine Hushed.bind .get fun t => ?_
      split
      · split
        · exact .bind (.put _) fun _ => .pure _
        · exact .bind (.put _) fun _ => .pure _
      · split
        · exact .bind (.emit rfl) fun _ => .bind (.put _) fun _ => .pure _
        · exact .bind (.put _) fun _ => .pure _
  · exact onLayer_hushed (Layer.setOption_hushed name value)

theorem deliversInReads : (transport eng net res).DeliversInReads where
  establish receiver := by
    refine Hushed.congr ?_ (run_establish eng net res receiver)
    refine Hushed.bind .get fun t => ?_
    split
    · exact .bind validate_hushed fun _ =>
        .bind (advance_hushed eng net res receiver) (conclude_hushed net)
    · exact .bind (advance_hushed eng net res receiver) (conclude_hushed net)
  close := close_hushed net
  write bytes := onLayer_hushed (Layer.write_hushed eng bytes)
  setOption := setOption_hushed net

end OverTcp

end Tls

/-! ### TCP -/

namespace Tcp

variable (net : Network ω) (res : Resolver ρ)

theorem setStep_hushed (step : Step) : (setStep (ρ := ρ) (ω := ω) step).Hushed :=
  .bind .get fun _ => .bind (.emit rfl) fun _ => .put _

theorem pollResolve_hushed : (pollResolve (ω := ω) res).Hushed := by
  refine Hushed.bind .get fun t => .bind (.within _ _ (ask_hushed res _ _)) fun _ => ?_
  split
  · exact .bind (.modify _) fun _ => .bind (setStep_hushed _) fun _ => .pure _
  · exact .pure _
  · exact .bind (.emit rfl) fun _ => .pure _

theorem pollConnect_hushed (receiver : Receiver) : (pollConnect (ρ := ρ) net receiver).Hushed := by
  refine Hushed.bind .get fun t => ?_
  split
  · exact .pure _
  · refine Hushed.bind (.within _ _ (net.pollConnect_hushed _ _ _)) fun _ =>
      .bind (.modify _) fun _ => ?_
    split
    · exact .bind (.modify _) fun _ => .bind (setStep_hushed _) fun _ => .pure _
    · exact .pure _
    · exact .bind (.emit rfl) fun _ => .pure _

theorem establish_hushed (receiver : Receiver) : (establish net res receiver).Hushed := by
  have ends (answer : Progress) : (do
      if answer = .failed then
        Act.modify (release net)
        setStep .failed
      return answer : Act Effect (Tcp ρ ω) Progress).Hushed := by
    split
    · exact .bind (.modify _) fun _ => .bind (setStep_hushed _) fun _ => .pure _
    · exact .pure _
  refine Hushed.bind .get fun t => ?_
  split
  · exact .bind (pollResolve_hushed res) ends
  · exact .bind (pollConnect_hushed net receiver) ends
  · exact .bind (.pure _) ends
  · exact .bind (.emit rfl) fun _ => .bind (.pure _) ends

theorem write_hushed (bytes : Bytes) : (write (ρ := ρ) net bytes).Hushed := by
  refine Hushed.bind .get fun t => ?_
  split
  · exact .pure _
  · exact .bind (.put _) fun _ => .pure _

theorem setOption_hushed (name : String) (value : Setting) :
    (setOption (ρ := ρ) net name value).Hushed := by
  unfold setOption
  split
  · split
    · exact .pure _
    · refine Hushed.bind .get fun t => ?_
      split
      · exact .bind (.put _) fun _ => .pure _
      · split
        · exact .bind (.put _) fun _ => .pure _
        · exact .bind (.put _) fun _ => .pure _
  · exact .pure _

theorem deliversInReads : (transport net res).DeliversInReads where
  establish := establish_hushed net res
  close := .bind (.modify _) fun _ => .pure _
  write := write_hushed net
  setOption := setOption_hushed net

/-! ### Who gets the bytes -/

variable {net : Network ω} {res : Resolver ρ} {t : Tcp ρ ω}

/-- A poll of the open keeps the receiver, takes its own, or forgets it. -/
theorem receiver_establish (receiver : Receiver) :
    ((establish net res receiver).run t).state.receiver ∈ [t.receiver, some receiver, none] := by
  cases hs : t.step with
  | resolve =>
    rcases ha : res.lookup t.hostname t.port t.resolver with ⟨answer, resolver⟩
    cases answer with
    | error fault => simp [establish, hs, pollResolve, ha]
    | ok address => cases address <;> simp [establish, hs, pollResolve, ha, setStep]
  | connect =>
    cases hd : t.address with
    | none => simp [establish, hs, pollConnect, hd, release, setStep]
    | some address =>
      rcases hc : (net.pollConnect t.dialling address (t.keepAlive.getD false)).run t.network with
        ⟨⟨answer, slot⟩, w, es⟩
      cases answer with
      | error fault => simp [establish, hs, pollConnect, hd, hc, release, setStep]
      | ok connected => cases connected <;> simp [establish, hs, pollConnect, hd, hc, setStep]
  | opened => simp [establish, hs]
  | failed => simp [establish, hs, release, setStep]

/-- A write leaves the receiver alone. -/
theorem receiver_write (bytes : Bytes) : ((write net bytes).run t).state.receiver = t.receiver := by
  cases hs : t.stream <;> simp [write, hs]

/-- So does an option. -/
theorem receiver_setOption (name : String) (value : Setting) :
    ((setOption net name value).run t).state.receiver = t.receiver := by
  by_cases hn : name = optionNames.keepAlive
  · cases hv : value.truth? with
    | none => simp [setOption, hn, hv]
    | some keepAlive =>
      cases hs : t.stream with
      | none => simp [setOption, hn, hv, hs]
      | some socket =>
        rcases hk : net.switchKeepAlive socket keepAlive t.network with ⟨switched, w⟩
        cases switched <;> simp [setOption, hn, hv, hs, hk]
  · simp [setOption, hn]

/-- So does a read, which hands bytes to it only. -/
theorem receiver_read :
    let o := (read net).run t
    o.state.receiver = t.receiver ∧
      ∀ tag bytes, .received tag bytes ∈ o.events → t.receiver = some ⟨tag⟩ := by
  cases hs : t.stream with
  | none => simp [read, hs]
  | some socket =>
    rcases ha : net.receive receiveBufferSize t.network with ⟨answer, w⟩
    cases answer with
    | error cause => simp [read, hs, ha]
    | ok arrived =>
      cases arrived with
      | none => simp [read, hs, ha]
      | some bytes =>
        cases bytes with
        | nil => simp [read, hs, ha]
        | cons b bytes => cases hr : t.receiver <;> simp [read, hs, ha, deliver, hr]

/-- What a request hands out goes to the receiver that is there. -/
theorem received_serve (q : Transport.Request) (tag : Tag) (bytes : Bytes)
    (member : .effect (.received tag bytes) ∈ (((transport net res).serve q).run t).events) :
    t.receiver = some ⟨tag⟩ := by
  by_cases hq : q = .read
  · subst hq
    have read : .received tag bytes ∈ ((read net).run t).events := by
      simpa [Transport.serve, Transport.recorded, transport] using member
    exact receiver_read.2 tag bytes read
  · exact absurd member ((deliversInReads net res).not_received hq)

/-- A new receiver comes from an open. -/
theorem receiver_serve (q : Transport.Request) (receiver : Receiver)
    (held : (((transport net res).serve q).run t).state.receiver = some receiver) :
    t.receiver = some receiver ∨ q = .establish receiver := by
  cases q with
  | establish own =>
    have among : ((establish net res own).run t).state.receiver ∈ [t.receiver, some own, none] :=
      receiver_establish own
    have held : ((establish net res own).run t).state.receiver = some receiver := by
      simpa [Transport.serve, Transport.recorded, transport] using held
    rw [held] at among
    simpa [eq_comm] using among
  | close => simp [Transport.serve, Transport.recorded, transport, close, release] at held
  | read =>
    left
    simpa [Transport.serve, Transport.recorded, transport, receiver_read.1] using held
  | write bytes =>
    left
    simpa [Transport.serve, Transport.offer, Transport.recorded, transport, receiver_write] using held
  | setOption name value =>
    left
    simpa [Transport.serve, Transport.unrecorded, transport, receiver_setOption] using held
  | retrieve => exact .inl (by simpa [Transport.serve] using held)

/-- From any state, bytes go to the receiver that is there or to one that is given in an open. -/
theorem received_serveAll (qs : List Transport.Request) (tag : Tag) (bytes : Bytes)
    (member : .effect (.received tag bytes) ∈ (((transport net res).serveAll qs).run t).events) :
    t.receiver = some ⟨tag⟩ ∨ .establish ⟨tag⟩ ∈ qs := by
  induction qs generalizing t with
  | nil => simp [Transport.serveAll_nil] at member
  | cons q qs ih =>
    have parts : .effect (.received tag bytes) ∈ (((transport net res).serve q).run t).events ∨
        .effect (.received tag bytes) ∈ (((transport net res).serveAll qs).run
          (((transport net res).serve q).run t).state).events := by
      simpa [Transport.serveAll_cons, Transport.serveAll_nil] using member
    rcases parts with now | later
    · exact .inl (received_serve q tag bytes now)
    · rcases ih later with held | asked
      · rcases receiver_serve q ⟨tag⟩ held with before | rfl
        · exact .inl before
        · exact .inr List.mem_cons_self
      · exact .inr (List.mem_cons_of_mem _ asked)

/-- A TCP transport hands bytes only to receivers that it was given in an open. -/
theorem loyal (net : Network ω) (res : Resolver ρ) (resolver : ρ) (network : ω) (endpoint : Endpoint)
    (made : (create net res resolver network endpoint).result = .ok t) :
    (transport net res).Loyal t := by
  have new : t.receiver = none := by
    unfold create at made
    split at made
    · simp at made
    · refine Transport.configured_invariant (·.receiver = none) made (fun name value s nobody => ?_) rfl
      exact (receiver_setOption name value).trans nobody
  rintro qs es u ⟨rfl, rfl⟩ tag bytes member
  rcases received_serveAll qs tag bytes member with held | asked
  · simp [new] at held
  · exact asked

end Tcp

end PolledConnection
