import PolledConnection.Proofs.Tls.Contents

/-! # The options of a transport, as data

  A transport stores the options that it accepts in fields of its own: texts
  in a store of TLS options, and the keepalive switch. A `Stock` is the common
  shape of these fields. It takes an option or refuses it (`put`), is read by
  name (`lookup`), and listed (`entries`).

  A stock reads what was put last (`lookup_puts`). Putting its own list into it
  changes nothing (`puts_self`), and putting the list into a new one gives the
  same stock, with the capabilities of the new one (`puts_entries`).
-/

namespace PolledConnection

open Tls (Entry OneFamily Slot families optionOf)

namespace Settings

variable {name : String} {value : Setting} {options : List (String × Setting)}

/-- Of two lists, the later one decides if it has the name. -/
theorem get?_append (first later : List (String × Setting)) (name : String) :
    (mk (first ++ later)).get? name = ((mk later).get? name).or ((mk first).get? name) := by
  unfold get?
  rw [List.reverse_append, List.find?_append, Option.map_or]

theorem mem_of_get? (h : (mk options).get? name = some value) : (name, value) ∈ options := by
  unfold get? at h
  obtain ⟨⟨key, setting⟩, found, rfl⟩ := Option.map_eq_some_iff.mp h
  have same : key = name := by simpa using List.find?_some found
  have listed : (key, setting) ∈ options := List.mem_reverse.mp (List.mem_of_find?_eq_some found)
  rw [same] at listed
  exact listed

/-- In a list without repeated names, the value of a name is the one that is listed. -/
theorem get?_eq_some_iff (once : (options.map Prod.fst).Nodup) :
    (mk options).get? name = some value ↔ (name, value) ∈ options := by
  constructor
  · exact mem_of_get?
  intro listed
  induction options with
  | nil => simp at listed
  | cons option rest ih =>
    obtain ⟨key, setting⟩ := option
    obtain ⟨fresh, later⟩ := List.nodup_cons.mp once
    rw [← List.singleton_append, get?_append]
    rcases List.mem_cons.mp listed with here | there
    · obtain ⟨rfl, rfl⟩ := Prod.mk.inj here
      -- The name does not come again, so the rest has no value for it.
      cases found : (mk rest).get? name with
      | none => simp [get?]
      | some other =>
        have again : name ∈ rest.map Prod.fst := List.mem_map_of_mem (mem_of_get? found)
        exact absurd again fresh
    · rw [ih later there]
      rfl

theorem get?_eq_none (h : ∀ value, (name, value) ∉ options) : (mk options).get? name = none := by
  cases found : (mk options).get? name with
  | none => rfl
  | some value => exact absurd (mem_of_get? found) (h value)

end Settings

/-! ### The keepalive option -/

/-- The keepalive option that comes last, or a value in the absence of all. -/
def keepAliveIn (options : List (String × Setting)) (otherwise : Bool) : Setting :=
  ((Settings.mk options).get? optionNames.keepAlive).getD (.truth otherwise)

@[simp] theorem keepAliveIn_nil (on : Bool) : keepAliveIn [] on = .truth on := rfl

@[simp] theorem keepAliveIn_singleton (value : Setting) (on : Bool) :
    keepAliveIn [(optionNames.keepAlive, value)] on = value := by
  simp [keepAliveIn, Settings.get?]

/-- Options that come later are looked at first. -/
theorem keepAliveIn_append {first : List (String × Setting)} {on off : Bool}
    (h : keepAliveIn first off = .truth on) (later : List (String × Setting)) :
    keepAliveIn (first ++ later) off = keepAliveIn later on := by
  unfold keepAliveIn at h ⊢
  rw [Settings.get?_append]
  cases (Settings.mk later).get? optionNames.keepAlive with
  | none => exact h
  | some value => rfl

/-- Options in between do not matter if the keepalive option is not among them. -/
theorem keepAliveIn_skip {between : List (String × Setting)}
    (none : ∀ value, (optionNames.keepAlive, value) ∉ between)
    (first later : List (String × Setting)) (off : Bool) :
    keepAliveIn (first ++ between ++ later) off = keepAliveIn (first ++ later) off := by
  unfold keepAliveIn
  rw [Settings.get?_append, Settings.get?_append, Settings.get?_append, Settings.get?_eq_none none,
    Option.none_or]

/-- The options of a transport. -/
structure Stock where
  /-- The options for TLS sessions. -/
  tls : Tls.Options
  /-- Whether there is a keepalive option. -/
  hasSwitch : Bool
  /-- The keepalive option, if it was set. -/
  keepAlive : Option Bool
deriving DecidableEq

namespace Stock

variable {s t : Stock} {name : String} {value : Setting} {options : List (String × Setting)}

/-! ### Putting and reading -/

/-- A stock without options. -/
def new (supported : Capabilities) (hasSwitch : Bool) : Stock := ⟨.new supported, hasSwitch, none⟩

/-- The stock with one more option, unless that is refused. -/
def put (s : Stock) (name : String) (value : Setting) : Option Stock :=
  if name = optionNames.keepAlive then
    if s.hasSwitch then value.truth?.map fun on => { s with keepAlive := some on } else none
  else
    match s.tls.set name value with
    | (.ok .accepted, tls) => some { s with tls := tls }
    | _ => none

/-- Puts options in order; all of them have to be taken. -/
def puts (s : Stock) : List (String × Setting) → Option Stock
  | [] => some s
  | option :: rest => (s.put option.1 option.2).bind fun t => t.puts rest

/-- The value of an option. -/
def lookup (s : Stock) (name : String) : Option Setting :=
  if name = optionNames.keepAlive then s.keepAlive.map .truth
  else ((Slot.ofName? name).bind s.tls.read?).map .text

/-- All options that are set. -/
def entries (s : Stock) : List (String × Setting) :=
  s.tls.retrieve.entries ++ s.keepAlive.toList.map fun on => (optionNames.keepAlive, .truth on)

/-- The keepalive option is not one for TLS. -/
theorem name_ne_keepAlive (slot : Slot) : slot.name ≠ optionNames.keepAlive := by
  cases slot with
  | trustedCerts => decide
  | certificate f | key f => cases f <;> decide

@[simp] theorem lookup_keepAlive (s : Stock) :
    s.lookup optionNames.keepAlive = s.keepAlive.map .truth := by
  simp [lookup]

@[simp] theorem lookup_name (s : Stock) (slot : Slot) :
    s.lookup slot.name = (s.tls.read? slot).map .text := by
  simp [lookup, name_ne_keepAlive]

/-- What is taken, and what it does. -/
theorem put_eq_some : s.put name value = some t ↔
    (∃ on, name = optionNames.keepAlive ∧ value = .truth on ∧ s.hasSwitch = true ∧
      t = { s with keepAlive := some on }) ∨
    (∃ slot text, name = slot.name ∧ value = .text text ∧ slot.isIn s.tls.supported = true ∧
      s.tls.conflict? slot = none ∧ t = { s with tls := s.tls.store slot text }) := by
  constructor
  · intro h
    unfold put at h
    by_cases hn : name = optionNames.keepAlive
    · left
      cases hw : s.hasSwitch with
      | false => simp [hn, hw] at h
      | true =>
        cases value with
        | truth on => exact ⟨on, hn, rfl, rfl, by simpa [hn, hw, Setting.truth?, eq_comm] using h⟩
        | whole | text => simp [hn, hw, Setting.truth?] at h
    · right
      rw [if_neg hn] at h
      split at h
      · next tls accepted =>
        obtain ⟨slot, text, rfl, rfl, has, free, rfl⟩ := Tls.Options.set_eq_accepted.mp accepted
        exact ⟨slot, text, rfl, rfl, has, free, (Option.some.inj h).symm⟩
      · simp at h
  · rintro (⟨on, rfl, rfl, hw, rfl⟩ | ⟨slot, text, rfl, rfl, has, free, rfl⟩)
    · simp [put, hw, Setting.truth?]
    · have accepted := Tls.Options.set_eq_accepted.mpr ⟨slot, text, rfl, rfl, has, free, rfl⟩
      simp [put, name_ne_keepAlive, accepted]

/-- What can be read. -/
theorem lookup_eq_some : s.lookup name = some value ↔
    (∃ on, name = optionNames.keepAlive ∧ value = .truth on ∧ s.keepAlive = some on) ∨
    (∃ slot text, name = slot.name ∧ value = .text text ∧ s.tls.read? slot = some text) := by
  constructor
  · intro h
    unfold lookup at h
    by_cases hn : name = optionNames.keepAlive
    · left
      rw [if_pos hn] at h
      obtain ⟨on, set, rfl⟩ := Option.map_eq_some_iff.mp h
      exact ⟨on, hn, rfl, set⟩
    · right
      rw [if_neg hn] at h
      obtain ⟨text, read, rfl⟩ := Option.map_eq_some_iff.mp h
      obtain ⟨slot, known, set⟩ := Option.bind_eq_some_iff.mp read
      exact ⟨slot, text, Slot.ofName?_eq_some_iff.mp known, rfl, set⟩
  · rintro (⟨on, rfl, rfl, set⟩ | ⟨slot, text, rfl, rfl, set⟩)
    · simp [set]
    · simp [set]

theorem mem_entries : (name, value) ∈ s.entries ↔ s.lookup name = some value := by
  unfold entries
  rw [lookup_eq_some, List.mem_append, Tls.Options.retrieve_entries, or_comm]
  refine or_congr ?_ ?_
  · cases s.keepAlive with
    | none => simp
    | some on => simp [and_comm]
  · constructor
    · intro listed
      obtain ⟨⟨slot, text⟩, inside, same⟩ := List.mem_map.mp listed
      obtain ⟨rfl, rfl⟩ := Prod.mk.inj same
      exact ⟨slot, text, rfl, rfl, Tls.Options.mem_contents.mp inside⟩
    · rintro ⟨slot, text, rfl, rfl, set⟩
      exact List.mem_map.mpr ⟨(slot, text), Tls.Options.mem_contents.mpr set, rfl⟩

/-- Every name is listed once. -/
theorem nodup_entries (s : Stock) : (s.entries.map Prod.fst).Nodup := by
  unfold entries
  rw [List.map_append, Tls.Options.retrieve_entries, List.map_map, List.map_map]
  have slots : (s.tls.contents.map (Prod.fst ∘ optionOf)).Nodup := by
    have once := s.tls.nodup_contents
    rw [List.nodup_iff_pairwise_ne, List.pairwise_map] at once ⊢
    refine once.imp fun different same => ?_
    exact different (Slot.name_injective same)
  refine List.nodup_append.mpr ⟨slots, ?_, ?_⟩
  · cases s.keepAlive with
    | none | some on => simp
  · intro listed hl switch hs same
    obtain ⟨e, -, rfl⟩ := List.mem_map.mp hl
    obtain ⟨on, -, rfl⟩ := List.mem_map.mp hs
    exact name_ne_keepAlive e.1 same

/-- Reading the list is reading the stock. -/
theorem get?_entries (s : Stock) (name : String) :
    (Settings.mk s.entries).get? name = s.lookup name := by
  refine Option.ext fun value => ?_
  rw [Settings.get?_eq_some_iff s.nodup_entries, mem_entries]

/-! ### Stocks of accepted options -/

/-- A stock that holds nothing that it would not take. -/
structure Fit (s : Stock) : Prop where
  sound : s.tls.Sound
  switch : ∀ on, s.keepAlive = some on → s.hasSwitch = true

theorem fit_new (supported : Capabilities) (hasSwitch : Bool) : (new supported hasSwitch).Fit where
  sound := Tls.Options.sound_new supported
  switch := by simp [new]

/-- **Step**: a stock that took an option is fit, and reads as before but for that option. -/
theorem put_spec (fit : s.Fit) (h : s.put name value = some t) :
    t.Fit ∧ t.tls.supported = s.tls.supported ∧
      ∀ other, t.lookup other = if name = other then some value else s.lookup other := by
  rcases put_eq_some.mp h with ⟨on, rfl, rfl, hw, rfl⟩ | ⟨slot, text, rfl, rfl, has, free, rfl⟩
  · refine ⟨⟨fit.sound, fun _ _ => hw⟩, rfl, ?_⟩
    intro other
    by_cases same : optionNames.keepAlive = other
    · subst same
      simp
    · simp [lookup, same, Ne.symm same]
  · refine ⟨⟨fit.sound.store has free text, fit.switch⟩, Tls.Options.store_supported _ _ _, ?_⟩
    intro other
    by_cases hn : other = optionNames.keepAlive
    · subst hn
      simp [name_ne_keepAlive]
    · cases known : Slot.ofName? other with
      | none =>
        have different : slot.name ≠ other := by
          rintro rfl
          simp at known
        simp [lookup, hn, known, different]
      | some place =>
        obtain rfl := Slot.ofName?_eq_some_iff.mp known
        rw [lookup_name, lookup_name, Tls.Options.read?_store fit.sound free]
        by_cases same : slot = place
        · simp [same]
        · have different : slot.name ≠ place.name := fun h => same (Slot.name_injective h)
          simp [same, different]

theorem puts_append (first later : List (String × Setting)) :
    s.puts (first ++ later) = (s.puts first).bind fun t => t.puts later := by
  induction first generalizing s with
  | nil => rfl
  | cons option rest ih =>
    rw [List.cons_append, puts, puts, Option.bind_assoc]
    congr 1
    funext t
    exact ih

/-- **Run**: a stock that took options reads the last one of a name, and what it read before for
    names that did not come. -/
theorem puts_spec (fit : s.Fit) (h : s.puts options = some t) :
    t.Fit ∧ t.tls.supported = s.tls.supported ∧
      ∀ name, t.lookup name = ((Settings.mk options).get? name).or (s.lookup name) := by
  induction options generalizing s with
  | nil =>
    obtain rfl : s = t := Option.some.inj h
    exact ⟨fit, rfl, fun name => rfl⟩
  | cons option rest ih =>
    obtain ⟨u, first, later⟩ := Option.bind_eq_some_iff.mp h
    obtain ⟨fits, same, reads⟩ := put_spec fit first
    obtain ⟨fitt, still, readt⟩ := ih fits later
    refine ⟨fitt, still.trans same, fun name => ?_⟩
    rw [readt, reads, ← List.singleton_append, Settings.get?_append, Option.or_assoc]
    by_cases hn : option.1 = name
    · simp [Settings.get?, hn]
    · simp [Settings.get?, hn]

/-- A stock without options has nothing to read. -/
@[simp] theorem lookup_new (supported : Capabilities) (hasSwitch : Bool) (name : String) :
    (new supported hasSwitch).lookup name = none := by
  unfold lookup
  by_cases hn : name = optionNames.keepAlive
  · rw [if_pos hn]
    rfl
  · rw [if_neg hn]
    cases Slot.ofName? name with
    | none => rfl
    | some slot => cases slot <;> rfl

/-- Options do not bring the keepalive option into being. -/
theorem hasSwitch_puts (h : s.puts options = some t) : t.hasSwitch = s.hasSwitch := by
  induction options generalizing s with
  | nil => rw [Option.some.inj h]
  | cons option rest ih =>
    obtain ⟨u, first, later⟩ := Option.bind_eq_some_iff.mp h
    have still : u.hasSwitch = s.hasSwitch := by
      rcases put_eq_some.mp first with ⟨on, -, -, -, rfl⟩ | ⟨slot, text, -, -, -, -, rfl⟩
      · rfl
      · rfl
    exact (ih later).trans still

/-- The switch is as it was put last. -/
theorem keepAliveIn_of_puts (fit : s.Fit) (h : s.puts options = some t) :
    keepAliveIn options (s.keepAlive.getD false) = .truth (t.keepAlive.getD false) := by
  obtain ⟨-, -, reads⟩ := puts_spec fit h
  have switch := reads optionNames.keepAlive
  rw [lookup_keepAlive, lookup_keepAlive] at switch
  unfold keepAliveIn
  cases last : (Settings.mk options).get? optionNames.keepAlive with
  | none =>
    rw [last, Option.none_or] at switch
    rw [(Option.map_inj_right fun _ _ => Setting.truth.inj).mp switch]
    rfl
  | some value =>
    rw [last, Option.some_or] at switch
    obtain ⟨on, set, rfl⟩ := Option.map_eq_some_iff.mp switch
    simp [set]

/-! ### Putting a list back -/

/-- Putting what is there changes nothing. -/
theorem put_self (fit : s.Fit) (h : s.lookup name = some value) : s.put name value = some s := by
  rcases lookup_eq_some.mp h with ⟨on, rfl, rfl, set⟩ | ⟨slot, text, rfl, rfl, set⟩
  · refine put_eq_some.mpr (.inl ⟨on, rfl, rfl, fit.switch on set, ?_⟩)
    rw [← set]
  · refine put_eq_some.mpr (.inr ⟨slot, text, rfl, rfl, fit.sound.supported slot text set, ?_, ?_⟩)
    · exact Tls.Options.conflict?_self set
    · rw [Tls.Options.store_self set]

theorem puts_self_of_subset (fit : s.Fit) (h : ∀ option ∈ options, option ∈ s.entries) :
    s.puts options = some s := by
  induction options with
  | nil => rfl
  | cons option rest ih =>
    have here := put_self fit (mem_entries.mp (h option List.mem_cons_self))
    rw [puts, here]
    exact ih fun o ho => h o (List.mem_cons_of_mem _ ho)

/-- A stock takes its own list, and stays as it is. -/
theorem puts_self (fit : s.Fit) : s.puts s.entries = some s :=
  puts_self_of_subset fit fun _ listed => listed

/-- Entries of one family, all of them supported, are taken and remembered. -/
theorem puts_remembered {caps : Capabilities} {w : Bool} {k : Option Bool} {past more : List Entry}
    (one : OneFamily (past ++ more)) (has : ∀ e ∈ more, e.1.isIn caps = true) :
    (Stock.mk (.remembered caps past) w k).puts (more.map optionOf) =
      some ⟨.remembered caps (past ++ more), w, k⟩ := by
  induction more generalizing past with
  | nil => rw [List.append_nil]; rfl
  | cons e more ih =>
    obtain ⟨slot, text⟩ := e
    obtain ⟨free, unopposed⟩ := Tls.Options.conflict?_before one
    have first : (Stock.mk (.remembered caps past) w k).put slot.name (.text text) =
        some ⟨.remembered caps (past ++ [(slot, text)]), w, k⟩ := by
      rw [← Tls.Options.store_remembered text unopposed]
      exact put_eq_some.mpr (.inr ⟨slot, text, rfl, rfl, has _ List.mem_cons_self, free, rfl⟩)
    rw [List.append_cons] at one ⊢
    rw [← ih one fun d hd => has d (List.mem_cons_of_mem _ hd)]
    show ((Stock.mk _ w k).put slot.name (.text text)).bind _ = _
    rw [first]
    rfl

/-- A new stock with no fewer capabilities takes the list, and differs from the first one then in
    the capabilities only. -/
theorem puts_entries {caps : Capabilities} (fit : s.Fit)
    (more : caps.contains s.tls.supported = true) :
    (new caps s.hasSwitch).puts s.entries =
      some { s with tls := { s.tls with supported := caps } } := by
  have has : ∀ e ∈ s.tls.contents, e.1.isIn caps = true := by
    intro e he
    have read := Tls.Options.mem_contents.mp he
    exact Slot.isIn_of_contains more (fit.sound.supported _ _ read)
  have texts : (new caps s.hasSwitch).puts s.tls.retrieve.entries =
      some ⟨{ s.tls with supported := caps }, s.hasSwitch, none⟩ := by
    rw [Tls.Options.retrieve_entries, ← Tls.Options.remembered_contents fit.sound]
    have one : OneFamily ([] ++ s.tls.contents) := s.tls.oneFamily_contents
    exact puts_remembered one has
  rw [entries, puts_append, texts, Option.bind_some]
  cases switch : s.keepAlive with
  | none =>
    rw [← switch]
    simp [puts, switch]
  | some on =>
    have taken : (Stock.mk { s.tls with supported := caps } s.hasSwitch none).put
        optionNames.keepAlive (.truth on) =
        some ⟨{ s.tls with supported := caps }, s.hasSwitch, some on⟩ :=
      put_eq_some.mpr (.inl ⟨on, rfl, rfl, fit.switch on switch, rfl⟩)
    simp [puts, taken]

end Stock

end PolledConnection
