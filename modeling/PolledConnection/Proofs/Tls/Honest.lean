import PolledConnection.Script.Engine
import PolledConnection.Tls.Layer

/-! # Honest sessions

  A session hands out its data item by item. It reads honestly (`Honest`) if
  a read copies what fits of the present item, and what is left is the next.
  So an item comes in pieces (`cut`): full buffers but for the last, none of
  them empty.

  The end of this module is about scripted sessions, which are honest unless
  their script claims counts of its own.
-/

namespace PolledConnection

namespace Tls

variable {ε σ : Type}

/-- How the sessions of an engine hand out their data. -/
structure Honest (eng : Engine ε σ) where
  /-- The item that a session has at present; there is none if it is empty. -/
  item : σ → Bytes
  /-- The engine's states that it creates such sessions in. -/
  able : ε → Prop
  /-- The sessions that this is about. -/
  sound : σ → Prop
  create_able : ∀ options hostname port carrier e, able e →
    able (eng.create options hostname port carrier e).2
  create_sound : ∀ options hostname port carrier e session, able e →
    (eng.create options hostname port carrier e).1 = .ok session → sound session
  handshake : ∀ s, sound s → sound (eng.handshake s).2
  read : ∀ size s, sound s → sound (eng.read size s).2
  write : ∀ bytes s, sound s → sound (eng.write bytes s).2
  /-- A read copies what fits of the item, and answers how much that is. -/
  copies : ∀ size s, sound s → item s ≠ [] →
    (eng.read size s).1 = .ok ⟨min (item s).length size, (item s).take size⟩
  /-- What did not fit is the next item. -/
  keeps : ∀ size s, sound s → size < (item s).length →
    item (eng.read size s).2 = (item s).drop size
  /-- Without an item, a read finds nothing or fails. -/
  nothing : ∀ size s fill, sound s → item s = [] → (eng.read size s).1 = .ok fill → fill.count = 0
  /-- A read that hands something out uses up some of the backlog. -/
  drains : ∀ s, sound s → item s ≠ [] →
    eng.backlog (eng.read receiveBufferSize s).2 < eng.backlog s

/-! ### Items in pieces -/

/-- The number of reads that take an item. -/
def rounds (d : Bytes) : Nat := (d.length + (receiveBufferSize - 1)) / receiveBufferSize

/-- The first pieces of an item. -/
def chop : Nat → Bytes → List Bytes
  | 0, _ => []
  | n + 1, d => d.take receiveBufferSize :: chop n (d.drop receiveBufferSize)

/-- All pieces of an item. -/
def cut (d : Bytes) : List Bytes := chop (rounds d) d

/-- The pieces of an item together are the item. None is empty, all but the last are full, and there
    are as many as reads. -/
structure Pieced (d : Bytes) (ps : List Bytes) : Prop where
  whole : ps.flatten = d
  short : ∀ p ∈ ps, p ≠ [] ∧ p.length ≤ receiveBufferSize
  full : ∀ p ∈ ps.dropLast, p.length = receiveBufferSize
  number : ps.length = rounds d

theorem rounds_short {d : Bytes} (some : d ≠ []) (fits : d.length ≤ receiveBufferSize) :
    rounds d = 1 := by
  have length := List.length_pos_iff.mpr some
  simp only [rounds, receiveBufferSize] at *
  omega

theorem rounds_long {d : Bytes} (long : receiveBufferSize < d.length) :
    rounds d = rounds (d.drop receiveBufferSize) + 1 := by
  simp only [rounds, receiveBufferSize, List.length_drop] at *
  omega

theorem cut_short {d : Bytes} (some : d ≠ []) (fits : d.length ≤ receiveBufferSize) : cut d = [d] := by
  rw [cut, rounds_short some fits, chop, chop, List.take_of_length_le fits]

theorem cut_long {d : Bytes} (long : receiveBufferSize < d.length) :
    cut d = d.take receiveBufferSize :: cut (d.drop receiveBufferSize) := by
  rw [cut, rounds_long long, chop, cut]

/-- An item goes on behind its first piece, or that is all of it. -/
@[elab_as_elim]
theorem item_induction {motive : Bytes → Prop}
    (last : ∀ d, d ≠ [] → d.length ≤ receiveBufferSize → motive d)
    (more : ∀ d, receiveBufferSize < d.length → motive (d.drop receiveBufferSize) → motive d)
    (d : Bytes) (some : d ≠ []) : motive d := by
  by_cases fits : d.length ≤ receiveBufferSize
  · exact last d some fits
  · have long : receiveBufferSize < d.length := Nat.lt_of_not_le fits
    have rest : d.drop receiveBufferSize ≠ [] := by
      intro empty
      have short := List.drop_eq_nil_iff.mp empty
      omega
    exact more d long (item_induction last more _ rest)
termination_by d.length
decreasing_by
  simp only [receiveBufferSize, List.length_drop] at *
  omega

theorem pieced_cut (d : Bytes) (some : d ≠ []) : Pieced d (cut d) := by
  refine item_induction (fun d some fits => ?_) (fun d long ih => ?_) d some
  · rw [cut_short some fits]
    exact ⟨by simp, by simpa using ⟨some, fits⟩, by simp, (rounds_short some fits).symm⟩
  · -- The first piece is full, and it is not the last one.
    have pieces : cut (d.drop receiveBufferSize) ≠ [] := by
      intro none
      have whole := ih.whole
      rw [none, List.flatten_nil] at whole
      have rest := congrArg List.length whole
      rw [List.length_drop] at rest
      simp only [List.length_nil] at rest
      omega
    have length : (d.take receiveBufferSize).length = receiveBufferSize :=
      List.length_take_of_le (Nat.le_of_lt long)
    rw [cut_long long]
    refine ⟨?_, ?_, ?_, ?_⟩
    · rw [List.flatten_cons, ih.whole, List.take_append_drop]
    · refine List.forall_mem_cons.mpr ⟨⟨?_, Nat.le_of_eq length⟩, ih.short⟩
      intro none
      rw [none] at length
      simp [receiveBufferSize] at length
    · rw [List.dropLast_cons_of_ne_nil pieces]
      exact List.forall_mem_cons.mpr ⟨length, ih.full⟩
    · rw [List.length_cons, ih.number, rounds_long long]

/-! ### What a session supplies -/

variable {eng : Engine ε σ} {honest : Honest eng}

/-- The session behind a number of reads. -/
def readTimes (eng : Engine ε σ) : Nat → σ → σ
  | 0, s => s
  | n + 1, s => readTimes eng n (eng.read receiveBufferSize s).2

/-- The items that a session hands out before a read finds nothing or fails. -/
def Honest.Supplies (honest : Honest eng) : List Bytes → σ → Prop
  | [], s => honest.item s = []
  | d :: ds, s => d ≠ [] ∧ honest.item s = d ∧ honest.Supplies ds (readTimes eng (rounds d) s)

/-- The pieces that a session hands out, one in a read, before a read finds nothing or fails. -/
inductive Honest.Hands (honest : Honest eng) : σ → List Bytes → Prop where
  | nothing {s} (none : honest.item s = []) : honest.Hands s []
  | piece {s ps} (some : honest.item s ≠ []) (rest : honest.Hands (eng.read receiveBufferSize s).2 ps) :
      honest.Hands s ((honest.item s).take receiveBufferSize :: ps)

/-- An item is handed out in its pieces. -/
theorem Honest.hands_item (honest : Honest eng) (d : Bytes) (some : d ≠ []) :
    ∀ s ps, honest.sound s → honest.item s = d → honest.Hands (readTimes eng (rounds d) s) ps →
      honest.Hands s (cut d ++ ps) := by
  -- The session is a variable of the statement: it goes on with every piece.
  refine item_induction (fun d some fits => ?_) (fun d long ih => ?_) d some
  · intro s ps sound item rest
    rw [rounds_short some fits] at rest
    have all := Honest.Hands.piece (by rwa [item]) rest
    rw [item, List.take_of_length_le fits] at all
    rwa [cut_short some fits]
  · intro s ps sound item rest
    rw [rounds_long long] at rest
    -- Behind the first read the item is what did not fit, and the others follow from that.
    have left := honest.keeps receiveBufferSize s sound (by rwa [item])
    rw [item] at left
    have some : honest.item s ≠ [] := by
      rw [item]
      rintro rfl
      simp at long
    have all := Honest.Hands.piece some (ih _ ps (honest.read receiveBufferSize s sound) left rest)
    rw [item] at all
    rwa [cut_long long]

theorem Honest.sound_readTimes (honest : Honest eng) (n : Nat) {s : σ} (sound : honest.sound s) :
    honest.sound (readTimes eng n s) := by
  induction n generalizing s with
  | zero => exact sound
  | succ n ih => exact ih (honest.read receiveBufferSize s sound)

theorem Honest.hands_of_supplies (honest : Honest eng) {ds : List Bytes} {s : σ}
    (sound : honest.sound s) (h : honest.Supplies ds s) : honest.Hands s (ds.flatMap cut) := by
  induction ds generalizing s with
  | nil => exact .nothing h
  | cons d ds ih =>
    obtain ⟨some, item, rest⟩ := h
    exact honest.hands_item d some s _ sound item (ih (honest.sound_readTimes _ sound) rest)

/-- The backlog of a session covers all pieces. -/
theorem Honest.Hands.length_le {s : σ} {ps : List Bytes} (h : honest.Hands s ps)
    (sound : honest.sound s) : ps.length ≤ eng.backlog s := by
  induction h with
  | nothing => exact Nat.zero_le _
  | @piece s ps some _ ih =>
    have rest := ih (honest.read receiveBufferSize s sound)
    have less := honest.drains s sound some
    rw [List.length_cons]
    omega

/-- No item that is handed out is empty. -/
theorem Honest.Supplies.some {ds : List Bytes} {s : σ} (h : honest.Supplies ds s) :
    ∀ d ∈ ds, d ≠ [] := by
  induction ds generalizing s with
  | nil => simp
  | cons d ds ih => exact List.forall_mem_cons.mpr ⟨h.1, ih h.2.2⟩

/-- The number of reads that take items, and of one that finds nothing more. -/
def readsFor : List Bytes → Nat
  | [] => 1
  | d :: ds => rounds d + readsFor ds

/-- All reads but the last take a piece. -/
theorem length_pieces {ds : List Bytes} (some : ∀ d ∈ ds, d ≠ []) :
    (ds.flatMap cut).length + 1 = readsFor ds := by
  induction ds with
  | nil => rfl
  | cons d ds ih =>
    obtain ⟨first, rest⟩ := List.forall_mem_cons.mp some
    rw [List.flatMap_cons, List.length_append, (pieced_cut d first).number, Nat.add_assoc, ih rest,
      readsFor]

end Tls

/-! ### Scripted sessions -/

namespace Script

/-- Whether an entry claims what it puts into the buffer. -/
def ReadEntry.isHonest : ReadEntry → Bool
  | .nothing | .failing _ | .data _ => true
  | .claiming .. => false

namespace Session

/-- All reads to come are honest. -/
def Honest (s : Session) : Prop := ∀ r ∈ s.reads, r.isHonest = true

/-- The bytes of the first read to come. -/
def item (s : Session) : Bytes :=
  match s.reads with
  | .data bytes :: _ => bytes
  | _ => []

/-- The bytes are those of a read to come. -/
theorem reads_of_item {s : Session} (some : s.item ≠ []) :
    ∃ bytes rest, s.item = bytes ∧ s.reads = .data bytes :: rest := by
  cases hr : s.reads with
  | nil => simp [item, hr] at some
  | cons r rest =>
    cases r with
    | data bytes => exact ⟨bytes, rest, by simp [item, hr], rfl⟩
    | nothing | failing | claiming => simp [item, hr] at some

/-- Without bytes, an honest read finds nothing or fails. -/
theorem read_of_no_item {s : Session} (h : s.Honest) (none : s.item = []) (size : Nat) :
    (∃ fault, (read size s).1 = .error fault) ∨ (read size s).1 = .ok ⟨0, []⟩ := by
  cases hr : s.reads with
  | nil => simp [read, hr]
  | cons r rest =>
    cases r with
    | nothing | failing => simp [read, hr]
    | data bytes =>
      obtain rfl : bytes = [] := by simpa [item, hr] using none
      simp [read, hr]
    | claiming =>
      have honest := h _ (hr ▸ List.mem_cons_self)
      simp [ReadEntry.isHonest] at honest

theorem honest_read (size : Nat) {s : Session} (h : s.Honest) : (read size s).2.Honest := by
  cases hr : s.reads with
  | nil => simpa [read, hr] using h
  | cons r rest =>
    have tail : ∀ x ∈ rest, x.isHonest = true := fun x hx => h x (by simp [hr, hx])
    cases r with
    | nothing | failing | claiming => simpa [read, hr, Honest] using tail
    | data bytes =>
      by_cases left : bytes.drop size = []
      · simpa [read, hr, Honest, left] using tail
      · simpa [read, hr, Honest, left, ReadEntry.isHonest] using tail

end Session

/-- A scripted engine is honest if its script is. -/
def Engine.honest : Tls.Honest engine where
  item := Session.item
  able e := e.session.Honest
  sound := Session.Honest
  create_able _ _ _ _ e able := by
    cases hn : (next none e.creations).1 <;> simpa [engine, create, hn] using able
  create_sound _ _ _ _ e session able created := by
    cases hn : (next none e.creations).1 with
    | none =>
      obtain rfl : e.session = session := by simpa [engine, create, hn] using created
      exact able
    | some fault => simp [engine, create, hn] at created
  handshake _ sound := sound
  read size _ sound := Session.honest_read size sound
  write _ _ sound := sound
  copies size s _ some := by
    obtain ⟨bytes, rest, item, reads⟩ := Session.reads_of_item some
    simp [engine, Session.read, reads, item, Nat.min_comm]
  keeps size s _ long := by
    have some : s.item ≠ [] := List.length_pos_iff.mp (Nat.zero_lt_of_lt long)
    obtain ⟨bytes, rest, item, reads⟩ := Session.reads_of_item some
    rw [item] at long ⊢
    have left : bytes.drop size ≠ [] := by simpa using long
    simp only [engine, Session.read, reads, left, if_false, Session.item]
  nothing size s fill sound none answer := by
    rcases Session.read_of_no_item sound none size with ⟨fault, failed⟩ | found
    · simp [engine, failed] at answer
    · simp only [engine, found] at answer
      rw [← Except.ok.inj answer]
  drains s _ some := by
    obtain ⟨bytes, rest, item, reads⟩ := Session.reads_of_item some
    have length := List.length_pos_iff.mpr (item ▸ some)
    have less : (bytes.drop receiveBufferSize).length < bytes.length := by
      simp only [List.length_drop, receiveBufferSize]
      omega
    by_cases left : bytes.drop receiveBufferSize = []
    · simp [engine, Session.read, reads, left, Session.backlog, Session.weight]
    · simpa [engine, Session.read, reads, left, Session.backlog, Session.weight] using less

end Script

end PolledConnection
