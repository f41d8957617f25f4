import PolledConnection.Proofs.Network.Inbound
import PolledConnection.Proofs.Tcp.Opening
import PolledConnection.Proofs.Tls.Reception

/-! # What a TCP transport has handed out

  A TCP transport hands out what it has read from its stream, and nothing else:
  its tally is what the onlooker of the network calls taken (`Tally`). Only a
  read hands out bytes, and only a read sees the end of the stream; where it
  does, all that the peer ever wrote was handed out before (`Fed`). Every
  request keeps that, and so does the time that passes between requests.
-/

namespace PolledConnection

open Tls (chunks effects)

variable {ρ ω : Type}

/-! ### Effects of reads -/

/-- Whether an effect can come from a read only. -/
def Effect.isOfRead : Effect → Bool
  | .received .. | .note .peerClosed => true
  | _ => false

/-- The effects of an act that reads nothing. -/
def Unread (es : List Effect) : Prop := ∀ e ∈ es, e.isOfRead = false

theorem Unread.nil : Unread [] := by simp [Unread]

theorem Unread.append {es fs : List Effect} (h₁ : Unread es) (h₂ : Unread fs) : Unread (es ++ fs) := by
  intro e he
  exact (List.mem_append.mp he).elim (h₁ e) (h₂ e)

theorem Unread.chunks {es : List Effect} (h : Unread es) : chunks es = [] := by
  refine List.filterMap_eq_nil_iff.mpr ?_
  intro e he
  have unread := h e he
  cases e with
  | received => simp [Effect.isOfRead] at unread
  | _ => rfl

theorem Unread.closed {es : List Effect} (h : Unread es) : .note .peerClosed ∉ es := by
  intro member
  have unread := h _ member
  simp [Effect.isOfRead] at unread

/-- A dial tells at most that the connect was refused. -/
theorem Network.dial_note {net : Network ω} {peer : Address} {keepAlive : Bool} {w w' : ω}
    {dialled : Except IoFault Socket} {note : Option Note}
    (h : net.dial peer keepAlive w = (dialled, note, w')) : Unread (note.toList.map .note) := by
  have same : note = (net.dial peer keepAlive w).2.1 := by rw [h]
  rw [same]
  unfold Network.dial
  repeat' split
  all_goals simp [Unread, Effect.isOfRead]

theorem Network.unread_pollConnect (net : Network ω) (slot : Option Socket) (peer : Address)
    (keepAlive : Bool) (w : ω) : Unread ((net.pollConnect slot peer keepAlive).run w).events := by
  cases slot with
  | some socket => simp [Network.pollConnect, Unread, Effect.isOfRead]
  | none =>
    rcases hd : net.dial peer keepAlive w with ⟨dialled, note, w'⟩
    have told := Network.dial_note hd
    cases dialled with
    | error | ok =>
      simpa [Network.pollConnect, hd, Unread, Effect.isOfRead, or_imp, forall_and] using told

namespace Tcp

variable (net : Network ω) (res : Resolver ρ) {t u : Tcp ρ ω} {view : ω → Inbound}

/-- A poll of the open reads nothing. -/
theorem unread_establish (receiver : Receiver) (t : Tcp ρ ω) :
    Unread ((establish net res receiver).run t).events := by
  cases hs : t.step with
  | resolve =>
    rcases ha : res.lookup t.hostname t.port t.resolver with ⟨fault | _ | address, resolver⟩
    · simp [establish, hs, pollResolve, ha, Unread, Effect.isOfRead]
    · simp [establish, hs, pollResolve, ha, Unread, Effect.isOfRead]
    · simp [establish, hs, pollResolve, ha, setStep, Unread, Effect.isOfRead]
  | connect =>
    cases ha : t.address with
    | none => simp [establish, hs, pollConnect, ha, setStep, Unread, Effect.isOfRead]
    | some peer =>
      have polled := net.unread_pollConnect t.dialling peer (t.keepAlive.getD false) t.network
      rcases hc : (net.pollConnect t.dialling peer (t.keepAlive.getD false)).run t.network with
        ⟨⟨fault | _ | _, socket⟩, w, effects⟩
      all_goals rw [hc] at polled
      · have told : Unread
            (effects ++ [.note (.connectFailed peer fault), .note (.tcpStep .connect .failed)]) :=
          polled.append (by simp [Unread, Effect.isOfRead])
        simpa [establish, hs, pollConnect, ha, hc, setStep, release] using told
      · simpa [establish, hs, pollConnect, ha, hc] using polled
      · have told : Unread (effects ++ [.note (.tcpStep .connect .opened)]) :=
          polled.append (by simp [Unread, Effect.isOfRead])
        simpa [establish, hs, pollConnect, ha, hc, setStep] using told
  | opened => simp [establish, hs, Unread]
  | failed => simp [establish, hs, setStep, release, Unread, Effect.isOfRead]

theorem unread_close (t : Tcp ρ ω) : Unread ((close net).run t).events := by
  simp [close, Unread]

theorem unread_write (bytes : Bytes) (t : Tcp ρ ω) : Unread ((write net bytes).run t).events := by
  cases hs : t.stream <;> simp [write, hs, Unread]

theorem unread_setOption (name : String) (value : Setting) (t : Tcp ρ ω) :
    Unread ((setOption net name value).run t).events := by
  by_cases hn : name = optionNames.keepAlive
  · cases hv : value.truth? with
    | none => simp [setOption, hn, hv, Unread]
    | some keepAlive =>
      cases hs : t.stream with
      | none => simp [setOption, hn, hv, hs, Unread]
      | some socket =>
        rcases hk : net.switchKeepAlive socket keepAlive t.network with ⟨switched, w⟩
        cases switched <;> simp [setOption, hn, hv, hs, hk, Unread]
  · simp [setOption, hn, Unread]

/-- So nothing but a read does. -/
theorem unread_serve {q : Transport.Request} (hq : q ≠ .read) (t : Tcp ρ ω) :
    Unread (effects (((transport net res).serve q).run t).events) := by
  cases q with
  | establish receiver =>
    simpa [Transport.serve, Transport.recorded, transport] using unread_establish net res receiver t
  | close => simpa [Transport.serve, Transport.recorded, transport] using unread_close net t
  | read => contradiction
  | write bytes =>
    simpa [Transport.serve, Transport.offer, Transport.recorded, transport] using
      unread_write net bytes t
  | setOption name value =>
    simpa [Transport.serve, Transport.unrecorded, transport] using unread_setOption net name value t
  | retrieve => simp [Transport.serve, Unread]

/-! ### What was read -/

/-- The bytes that were handed out so far are accounted for: they were read from the stream, and before
    the open was over there were none. -/
structure Tally (view : ω → Inbound) (bytes : Bytes) (t : Tcp ρ ω) : Prop where
  opened : t.step = .opened → bytes = (view t.network).taken
  early : t.step ≠ .opened → bytes = [] ∧ t.stream = none
  dialling : t.step ≠ .opened → t.dialling.isSome = true → (view t.network).taken = []
  receiver : t.stream.isSome = true → t.receiver.isSome = true

section
variable {net : Network ω} (carries : net.Carries view)
include carries

theorem idles_release (t : Tcp ρ ω) : (view t.network).Idles (view (release net t).network) := by
  unfold release
  split
  · exact carries.discard _
  · exact .refl

omit carries in
/-- Where there is a stream, the open is over. -/
theorem Tally.opened_of_stream {bytes : Bytes} (tally : Tally view bytes t)
    (hs : t.stream.isSome = true) : t.step = .opened := by
  by_cases opened : t.step = .opened
  · exact opened
  · simp [(tally.early opened).2] at hs

/-- **Step**: a poll of the open. -/
theorem Tally.polled {bytes : Bytes} (tally : Tally view bytes t) {receiver : Receiver}
    {answer : Progress} (polled : Polled net receiver t answer u) :
    Tally view bytes u ∧ (t.step = .opened → (view t.network).Idles (view u.network)) := by
  cases polled with
  | looked hs next =>
    have unopened : t.step ≠ .opened := by simp [hs]
    refine ⟨⟨?_, fun _ => tally.early unopened, fun _ => tally.dialling unopened, tally.receiver⟩,
      fun opened => absurd opened unopened⟩
    intro opened
    rcases next with rfl | rfl
    · simp at opened
    · simp at opened
  | pending hs h =>
    have unopened : t.step ≠ .opened := by simp [hs]
    exact ⟨⟨fun opened => absurd opened unopened, tally.early,
      fun _ held => carries.pollConnect (tally.dialling unopened) h held, tally.receiver⟩,
      fun opened => absurd opened unopened⟩
  | connected hs h =>
    have unopened : t.step ≠ .opened := by simp [hs]
    obtain ⟨socket, rfl, -⟩ := Network.pollConnect_slot h
    have new := carries.pollConnect (tally.dialling unopened) h rfl
    refine ⟨⟨fun _ => ?_, by simp, by simp, by simp⟩, fun opened => absurd opened unopened⟩
    rw [(tally.early unopened).1, new]
  | already => exact ⟨tally, fun _ => .refl⟩
  | failed hs =>
    exact ⟨⟨by simp, fun _ => ⟨(tally.early hs).1, rfl⟩, by simp, by simp⟩,
      fun opened => absurd opened hs⟩

/-- **Step**: a request that is not a read. -/
theorem Tally.served {bytes : Bytes} (tally : Tally view bytes t) {q : Transport.Request}
    {answer : Transport.Answer} (served : Served net t q answer u) (hq : q ≠ .read) :
    Tally view bytes u ∧ (t.step = .opened → (view t.network).Idles (view u.network)) := by
  -- What only lets time pass for the network of a stream.
  have passes (w : ω) (idles : (view t.network).Idles (view w)) (hs : t.stream.isSome = true)
      (socket : Option Socket) (keepAlive : Option Bool) (held : socket.isSome = true) :
      Tally view bytes { t with network := w, stream := socket, keepAlive := keepAlive } := by
    have opened := tally.opened_of_stream hs
    exact ⟨fun _ => (tally.opened opened).trans idles.taken.symm,
      fun unopened => absurd opened unopened, fun unopened => absurd opened unopened,
      fun _ => tally.receiver hs⟩
  cases served with
  | establish polled => exact tally.polled carries polled
  | close =>
    have idles := idles_release carries t
    refine ⟨⟨fun opened => ?_, fun unopened => ⟨(tally.early unopened).1, rfl⟩, ?_, ?_⟩,
      fun _ => idles⟩
    · rw [idles.taken]
      exact tally.opened opened
    · simp [release]
    · simp [release]
  | readNothing | read => contradiction
  | write hs => exact ⟨passes _ (carries.send _ _) hs _ _ hs, fun _ => carries.send _ _⟩
  | @switch on socket w hs h =>
    have idles : (view t.network).Idles (view w) := by
      simpa [h] using carries.setKeepAlive on t.network
    exact ⟨passes w idles (by simp [hs]) _ _ rfl, fun _ => idles⟩
  | @switchFails on w cause hs h =>
    have idles : (view t.network).Idles (view w) := by
      simpa [h] using carries.setKeepAlive on t.network
    exact ⟨passes w idles hs _ _ hs, fun _ => idles⟩
  | keep => exact ⟨⟨tally.opened, tally.early, tally.dialling, tally.receiver⟩, fun _ => .refl⟩
  | writeNothing | refuse | retrieve => exact ⟨tally, fun _ => .refl⟩

end

/-! ### Reads -/

/-- How a read from a stream turns out, from a view to a later one: what it answers and what it tells. -/
inductive Fetched (r : Receiver) (v : Inbound) : Progress → List Effect → Inbound → Prop where
  /-- At some moment nothing more had arrived. -/
  | nothing {s w} (before : v.Idles s) (all : s.taken = s.arrived) (behind : s.Idles w) :
      Fetched r v .waiting [] w
  /-- The next bytes were handed out. -/
  | bytes {w bytes} (some : 1 ≤ bytes.length) (fits : bytes.length ≤ receiveBufferSize)
      (grows : v.Grows w) (taken : w.taken = v.taken ++ bytes) :
      Fetched r v .done [.received r.tag bytes] w
  /-- The stream is over, and all of it had been read. -/
  | ended {w} (idles : v.Idles w) (isOver : w.isOver = true) (all : w.taken = w.written) :
      Fetched r v .failed [.note .peerClosed] w
  /-- The connection is broken. -/
  | broken {w cause} (idles : v.Idles w) : Fetched r v .failed [.note (.receiveFailed cause)] w

/-- Every read from a stream turns out so. -/
theorem read_fetched {net : Network ω} (carries : net.Carries view) {r : Receiver}
    (hs : t.stream.isSome = true) (hr : t.receiver = some r) :
    let o := (read net).run t
    Fetched r (view t.network) o.answer o.events (view o.state.network) := by
  obtain ⟨socket, hs⟩ := Option.isSome_iff_exists.mp hs
  obtain ⟨s, v, before, answers, behind⟩ := carries.receive receiveBufferSize t.network (by decide)
  rcases ha : net.receive receiveBufferSize t.network with ⟨answer, w⟩
  rw [ha] at answers behind
  cases answers with
  | nothing all => simpa [read, hs, ha] using Fetched.nothing before all behind
  | ended isOver all =>
    obtain ⟨still, same⟩ := behind.all_taken isOver all
    simpa [read, hs, ha] using Fetched.ended (before.trans behind) still same
  | @some bytes _ nonempty fits grows taken =>
    have length := List.length_pos_iff.mpr nonempty
    have fetched : Fetched r (view t.network) .done [.received r.tag bytes] (view w) := by
      refine .bytes length fits ((before.grows.trans grows).trans behind.grows) ?_
      rw [behind.taken, taken, before.taken]
    cases bytes with
    | nil => contradiction
    | cons b bytes => simpa [read, hs, ha, deliver, hr] using fetched
  | @fails cause =>
    have fetched : Fetched r (view t.network) .failed [.note (.receiveFailed cause)] (view w) :=
      .broken (before.trans behind)
    simpa [read, hs, ha] using fetched

/-! ### Histories -/

/-- What a transport has handed out, and what it knows of the end of the stream. -/
structure Fed (view : ω → Inbound) (es : List Effect) (t : Tcp ρ ω) : Prop where
  tally : Tally view (chunks es).flatten t
  sizes : ∀ bytes ∈ chunks es, 1 ≤ bytes.length ∧ bytes.length ≤ receiveBufferSize
  early : t.step ≠ .opened → .note .peerClosed ∉ es
  /-- Where the end of the stream was seen, all that the peer ever wrote was handed out before. -/
  ended : ∀ pre post, es = pre ++ .note .peerClosed :: post →
    (view t.network).isOver = true ∧ (chunks pre).flatten = (view t.network).written

/-- An element is the one that is added, or was there before. -/
theorem split_snoc {β : Type} {es pre post : List β} {x y : β} (h : es ++ [y] = pre ++ x :: post) :
    pre = es ∨ ∃ rest, es = pre ++ x :: rest := by
  rcases List.eq_nil_or_concat post with rfl | ⟨rest, last, rfl⟩
  · exact .inl (List.append_inj' h rfl).1.symm
  · have same : es ++ [y] = (pre ++ x :: rest) ++ [last] := by simpa using h
    exact .inr ⟨rest, (List.append_inj' same rfl).1⟩

/-- An element that is not in what is added was there before. -/
theorem split_of_notMem {β : Type} {es fs pre post : List β} {x : β} (hx : x ∉ fs)
    (h : es ++ fs = pre ++ x :: post) : ∃ rest, es = pre ++ x :: rest ∧ post = rest ++ fs := by
  rcases List.append_eq_append_iff.mp h with ⟨as, rfl, behind⟩ | ⟨as, rfl, behind⟩
  · have member : x ∈ fs := by simp [behind]
    exact absurd member hx
  · cases as with
    | nil =>
      have all : fs = x :: post := behind.symm
      exact absurd (by rw [all]; exact List.mem_cons_self) hx
    | cons y as =>
      obtain ⟨rfl, rfl⟩ := List.cons.inj behind
      exact ⟨as, rfl, rfl⟩

section
variable {net : Network ω} (carries : net.Carries view) {es fs : List Effect}

/-- **Step**: nothing is read, and time passes. -/
theorem Fed.passes (fed : Fed view es t) (unread : Unread fs)
    (tally : Tally view (chunks es).flatten u) (early : u.step ≠ .opened → t.step ≠ .opened)
    (idles : t.step = .opened → (view t.network).Idles (view u.network)) :
    Fed view (es ++ fs) u where
  tally := by simpa [unread.chunks] using tally
  sizes := by simpa [unread.chunks] using fed.sizes
  early unopened member := by
    rcases List.mem_append.mp member with before | now
    · exact fed.early (early unopened) before
    · exact unread.closed now
  ended pre post split := by
    obtain ⟨rest, before, -⟩ := split_of_notMem unread.closed split
    obtain ⟨isOver, all⟩ := fed.ended pre rest before
    -- The end of the stream is seen in a read only, so the open is over.
    have opened : t.step = .opened := by
      by_cases opened : t.step = .opened
      · exact opened
      · exact absurd (by simp [before]) (fed.early opened)
    obtain ⟨still, same⟩ := (idles opened).grows.ended isOver
    exact ⟨still, all.trans same.symm⟩

/-- **Step**: a read from a stream. -/
theorem Fed.fetched (fed : Fed view es t) {r : Receiver} {answer : Progress} {w : ω}
    (hs : t.stream.isSome = true) (fetched : Fetched r (view t.network) answer fs (view w)) :
    Fed view (es ++ fs) { t with network := w } := by
  have opened := fed.tally.opened_of_stream hs
  have tally (bytes : Bytes) (taken : bytes = (view w).taken) :
      Tally view bytes { t with network := w } :=
    ⟨fun _ => taken, fun unopened => absurd opened unopened, fun unopened => absurd opened unopened,
      fed.tally.receiver⟩
  have before := fed.tally.opened opened
  cases fetched with
  | nothing idles all behind =>
    have idles := idles.trans behind
    exact fed.passes .nil (tally _ (by rw [before, idles.taken])) id fun _ => idles
  | @broken _ cause idles =>
    have unread : Unread [.note (.receiveFailed cause)] := by simp [Unread, Effect.isOfRead]
    exact fed.passes unread (tally _ (by rw [before, idles.taken])) id fun _ => idles
  | @bytes _ bytes some fits grows taken =>
    have now : chunks (es ++ [.received r.tag bytes]) = chunks es ++ [bytes] := by
      simp [Effect.chunk?]
    refine ⟨?_, ?_, fun unopened => absurd opened unopened, ?_⟩
    · rw [now]
      exact tally _ (by simp [before, taken])
    · intro chunk member
      rw [now] at member
      rcases List.mem_append.mp member with old | new
      · exact fed.sizes chunk old
      · obtain rfl := List.mem_singleton.mp new
        exact ⟨some, fits⟩
    · intro pre post split
      obtain ⟨rest, earlier, -⟩ := split_of_notMem (by simp) split
      obtain ⟨isOver, all⟩ := fed.ended pre rest earlier
      obtain ⟨still, same⟩ := grows.ended isOver
      exact ⟨still, all.trans same.symm⟩
  | ended idles isOver all =>
    have now : chunks (es ++ [.note .peerClosed]) = chunks es := by simp [Effect.chunk?]
    refine ⟨?_, by simpa [now] using fed.sizes, fun unopened => absurd opened unopened, ?_⟩
    · rw [now]
      exact tally _ (by rw [before, idles.taken])
    · intro pre post split
      rcases split_snoc split with rfl | ⟨between, earlier⟩
      · exact ⟨isOver, by rw [before, ← idles.taken, all]⟩
      · -- The end was seen before already.
        obtain ⟨still, same⟩ := fed.ended pre between earlier
        obtain ⟨-, frozen⟩ := idles.grows.ended still
        exact ⟨isOver, same.trans frozen.symm⟩

/-- **Step**: time passes between requests. -/
theorem Fed.elapse (fed : Fed view es t) {w : ω} (idles : (view t.network).Idles (view w)) :
    Fed view es { t with network := w } := by
  have tally : Tally view (chunks es).flatten { t with network := w } := by
    refine ⟨fun opened => ?_, fed.tally.early, fun unopened held => ?_, fed.tally.receiver⟩
    · exact (fed.tally.opened opened).trans idles.taken.symm
    · exact idles.taken.trans (fed.tally.dialling unopened held)
  simpa using fed.passes .nil tally id fun _ => idles

include carries in
/-- **Step**: any request. -/
theorem Fed.request (res : Resolver ρ) (fed : Fed view es t) (q : Transport.Request) :
    let o := ((transport net res).serve q).run t
    Fed view (es ++ effects o.events) o.state := by
  by_cases hq : q = .read
  · subst hq
    cases hs : t.stream with
    | none => simpa [Transport.serve, Transport.recorded, transport, read, hs] using fed
    | some socket =>
      have held : t.stream.isSome = true := by simp [hs]
      obtain ⟨r, hr⟩ := Option.isSome_iff_exists.mp (fed.tally.receiver held)
      have step := fed.fetched held (read_fetched carries held hr)
      rw [← Tls.effects_effects ((read net).run t).events, read_stream net held] at step
      simpa [Transport.serve, Transport.recorded, transport, read_stream net held] using step
  · have served := serve_served net res t q
    obtain ⟨tally, idles⟩ := fed.tally.served carries served hq
    refine fed.passes (unread_serve net res hq t) tally ?_ idles
    intro unopened opened
    exact unopened (served.opened net opened).1

end

end Tcp

end PolledConnection
