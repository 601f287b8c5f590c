import TopicBroker.Proofs.Settings.Layers
import TopicBroker.Settings.Basic
import TopicBroker.Settings.Environment

/-! # Settings by key

The settings one by one: where each stands in a file, which variable gives it, and what is held for
it when variables were laid over a file. -/

namespace TopicBroker.Settings

open Record

/-! ## Keys -/

/-- The settings that a file or a variable may give. -/
inductive Key where
  | host
  | port
  | acceptTimeout
  | shutdownGrace
  | publisherWorkers
  | subscriberWorkers
  | publisherFirst
  | publisherLast
  | subscriberFirst
  | subscriberLast
  | messageTtl
  | mailboxCapacity
  | storagePath
  | seedTopics
  deriving DecidableEq, Repr

namespace Key

def all : List Key :=
  [host, port, acceptTimeout, shutdownGrace, publisherWorkers, subscriberWorkers, publisherFirst,
    publisherLast, subscriberFirst, subscriberLast, messageTtl, mailboxCapacity, storagePath,
    seedTopics]

theorem mem_all (key : Key) : key ∈ all := by
  cases key <;> decide

/-- What is known of a key: its section and its name there, its place in a section that is a list,
its variable, and what its values are. -/
structure Info where
  sectionName : String
  name : String
  place : Nat
  variableName : String
  leaf : Leaf

def info : Key → Info
  | host => ⟨"server", "host", 0, "IMQ_SERVER__HOST", .text⟩
  | port => ⟨"server", "port", 1, "IMQ_SERVER__PORT", .integer .nat16⟩
  | acceptTimeout =>
    ⟨"server", "accept_timeout_secs", 2, "IMQ_SERVER__ACCEPT_TIMEOUT_SECS", .integer .nat64⟩
  | shutdownGrace =>
    ⟨"server", "shutdown_grace_secs", 3, "IMQ_SERVER__SHUTDOWN_GRACE_SECS", .integer .nat64⟩
  | publisherWorkers =>
    ⟨"pools", "publisher_workers", 0, "IMQ_POOLS__PUBLISHER_WORKERS", .integer .count⟩
  | subscriberWorkers =>
    ⟨"pools", "subscriber_workers", 1, "IMQ_POOLS__SUBSCRIBER_WORKERS", .integer .count⟩
  | publisherFirst =>
    ⟨"pools", "publisher_port_start", 2, "IMQ_POOLS__PUBLISHER_PORT_START", .integer .nat16⟩
  | publisherLast =>
    ⟨"pools", "publisher_port_end", 3, "IMQ_POOLS__PUBLISHER_PORT_END", .integer .nat16⟩
  | subscriberFirst =>
    ⟨"pools", "subscriber_port_start", 4, "IMQ_POOLS__SUBSCRIBER_PORT_START", .integer .nat16⟩
  | subscriberLast =>
    ⟨"pools", "subscriber_port_end", 5, "IMQ_POOLS__SUBSCRIBER_PORT_END", .integer .nat16⟩
  | messageTtl =>
    ⟨"broker", "message_ttl_secs", 0, "IMQ_BROKER__MESSAGE_TTL_SECS", .integer .nat64⟩
  | mailboxCapacity =>
    ⟨"broker", "mailbox_capacity", 1, "IMQ_BROKER__MAILBOX_CAPACITY", .integer .count⟩
  | storagePath => ⟨"storage", "path", 0, "IMQ_STORAGE__PATH", .text⟩
  | seedTopics => ⟨"storage", "seed_topics", 1, "IMQ_STORAGE__SEED_TOPICS", .texts⟩

abbrev sectionName (key : Key) : String := key.info.sectionName

abbrev name (key : Key) : String := key.info.name

abbrev place (key : Key) : Nat := key.info.place

abbrev variableName (key : Key) : String := key.info.variableName

abbrev leaf (key : Key) : Leaf := key.info.leaf

abbrev Value (key : Key) : Type := key.leaf.Value

/-- The section and the name in one. -/
def dotted (key : Key) : String := key.sectionName ++ "." ++ key.name

/-- The value of a setting. -/
def get : (key : Key) → Settings → key.Value
  | host, settings => settings.server.host
  | port, settings => IntRange.ofFin settings.server.port
  | acceptTimeout, settings => IntRange.ofFin settings.server.acceptTimeout
  | shutdownGrace, settings => IntRange.ofFin settings.server.shutdownGrace
  | publisherWorkers, settings => IntRange.ofFin settings.pools.publisherWorkers
  | subscriberWorkers, settings => IntRange.ofFin settings.pools.subscriberWorkers
  | publisherFirst, settings => IntRange.ofFin settings.pools.ports.publisher.first
  | publisherLast, settings => IntRange.ofFin settings.pools.ports.publisher.last
  | subscriberFirst, settings => IntRange.ofFin settings.pools.ports.subscriber.first
  | subscriberLast, settings => IntRange.ofFin settings.pools.ports.subscriber.last
  | messageTtl, settings => IntRange.ofFin settings.broker.messageTtl
  | mailboxCapacity, settings => IntRange.ofFin settings.broker.mailboxCapacity
  | storagePath, settings => settings.storage.path
  | seedTopics, settings => settings.storage.seedTopics

theorem key?_variableName (key : Key) : Environment.key? key.variableName = some key.dotted := by
  cases key <;> decide +kernel

theorem pathOf_dotted (key : Key) :
    Setting.pathOf key.dotted = [.name key.sectionName, .name key.name] := by
  cases key <;> decide +kernel

theorem map_variableName_all : all.map variableName = Environment.names := rfl

theorem variableName_injective {key other : Key} (h : key.variableName = other.variableName) :
    key = other := by
  have hall : ∀ key ∈ all, ∀ other ∈ all, key.variableName = other.variableName →
      key = other := by decide +kernel
  exact hall key (mem_all key) other (mem_all other) h

theorem eq_of_names {key other : Key} (hsection : key.sectionName = other.sectionName)
    (hname : key.name = other.name) : key = other := by
  have hall : ∀ key ∈ all, ∀ other ∈ all, key.sectionName = other.sectionName →
      key.name = other.name → key = other := by decide +kernel
  exact hall key (mem_all key) other (mem_all other) hsection hname

theorem exists_key_of_mem_names {variableName : String} (h : variableName ∈ Environment.names) :
    ∃ key : Key, key.variableName = variableName := by
  rw [← map_variableName_all] at h
  obtain ⟨key, -, hkey⟩ := List.mem_map.mp h
  exact ⟨key, hkey⟩

end Key

/-! ## Variables -/

/-- The variables are among those that give settings, and none is given twice. -/
structure Documented (environment : List (String × String)) : Prop where
  known : ∀ entry ∈ environment, entry.1 ∈ Environment.names
  once : (environment.map Prod.fst).Nodup

/-- A variable gives a setting, be it well or not. -/
def Sets (environment : List (String × String)) (key : Key) (text : String) : Prop :=
  (key.variableName, text) ∈ environment

/-- A variable gives a setting of the section. -/
def Touches (environment : List (String × String)) (sectionName : String) : Prop :=
  ∃ key text, Sets environment key text ∧ key.sectionName = sectionName

/-- A variable gives something, and no table. -/
theorem settingOf_single (key value : String) :
    Environment.settingOf key value ≠ .absent ∧ (Environment.settingOf key value).Whole := by
  simp only [Environment.settingOf]
  split
  · exact ⟨nofun, fun _ => nofun⟩
  · exact ⟨nofun, fun _ => nofun⟩
  · exact ⟨nofun, fun _ => nofun⟩
  · exact ⟨nofun, fun _ => nofun⟩
  · split <;> exact ⟨nofun, fun _ => nofun⟩

theorem settingOf_ne_absent (key value : String) : Environment.settingOf key value ≠ .absent :=
  (settingOf_single key value).1

theorem whole_settingOf (key value : String) : (Environment.settingOf key value).Whole :=
  (settingOf_single key value).2

theorem Documented.of_cons {entry : String × String} {environment : List (String × String)}
    (h : Documented (entry :: environment)) :
    (∃ key : Key, ∃ text, entry = (key.variableName, text) ∧
      ∀ other text, Sets environment other text → other ≠ key) ∧ Documented environment := by
  obtain ⟨hfirst, hrest⟩ := List.forall_mem_cons.mp h.known
  obtain ⟨hnot, hnodup⟩ := List.nodup_cons.mp h.once
  obtain ⟨key, hkey⟩ := Key.exists_key_of_mem_names hfirst
  refine ⟨⟨key, entry.2, by rw [hkey], ?_⟩, hrest, hnodup⟩
  rintro other text hsets rfl
  exact hnot (hkey ▸ List.mem_map_of_mem hsets)

theorem Documented.text_unique {environment : List (String × String)} (h : Documented environment)
    {key : Key} {text other : String} (htext : Sets environment key text)
    (hother : Sets environment key other) : text = other := by
  have hsame : (key.variableName, text) = (key.variableName, other) :=
    List.inj_on_of_nodup_map h.once htext hother rfl
  exact (Prod.mk.inj hsame).2

theorem settings_cons (key : Key) (text : String) (environment : List (String × String)) :
    Environment.settings ((key.variableName, text) :: environment) =
      (key.dotted, Environment.settingOf key.dotted text) :: Environment.settings environment := by
  simp [Environment.settings, Key.key?_variableName]

/-- What is laid over by variables. -/
def laid (environment : List (String × String)) (base : Setting) : Setting :=
  Setting.layAll (Environment.settings environment) base

theorem laid_cons (key : Key) (text : String) (environment : List (String × String))
    (base : Setting) :
    laid ((key.variableName, text) :: environment) base = laid environment
      (Setting.layAt (Environment.settingOf key.dotted text)
        [.name key.sectionName, .name key.name] base) := by
  rw [laid, settings_cons, ← Key.pathOf_dotted]
  rfl

/-- A variable replaces the value of its key, and leaves every other one. -/
theorem member_member_layAt (key other : Key) {setting : Setting} (hwhole : setting.Whole)
    (base : Setting) :
    ((Setting.layAt setting [.name key.sectionName, .name key.name] base).member
        other.sectionName).member other.name =
      if other = key then setting else (base.member other.sectionName).member other.name := by
  rw [Setting.member_layAt]
  split
  · next hsection =>
      rw [Setting.member_layAt]
      split
      · next hname =>
          rw [if_pos (Key.eq_of_names hsection hname), Setting.layAt, hwhole.lay_eq]
      · next hname => rw [if_neg fun h : other = key => hname (h ▸ rfl), hsection]
  · next hsection => rw [if_neg fun h : other = key => hsection (h ▸ rfl)]

/-- A variable makes a table of its section, and leaves every other section. -/
theorem member_layAt_section (key : Key) {setting : Setting} (base : Setting)
    (sectionName : String) :
    (Setting.layAt setting [.name key.sectionName, .name key.name] base).member sectionName =
        base.member sectionName ∧ key.sectionName ≠ sectionName ∨
      key.sectionName = sectionName ∧ ∃ members,
        (Setting.layAt setting [.name key.sectionName, .name key.name] base).member sectionName =
          .table members := by
  rw [Setting.member_layAt]
  split
  · next hsection => exact .inr ⟨hsection.symm, _, rfl⟩
  · next hsection => exact .inl ⟨rfl, Ne.symm hsection⟩

section

variable {environment : List (String × String)} {base : Setting} {key : Key} {text : String}

theorem member_member_laid_of_unset (henvironment : Documented environment)
    (hunset : ∀ text, ¬ Sets environment key text) :
    ((laid environment base).member key.sectionName).member key.name =
      (base.member key.sectionName).member key.name := by
  induction environment generalizing base with
  | nil => rfl
  | cons entry environment ih =>
      obtain ⟨⟨first, text, rfl, -⟩, hrest⟩ := henvironment.of_cons
      have hne : key ≠ first := by
        rintro rfl
        exact hunset text List.mem_cons_self
      rw [laid_cons, ih hrest fun text hsets => hunset text (List.mem_cons_of_mem _ hsets),
        member_member_layAt first key (whole_settingOf _ _), if_neg hne]

theorem member_member_laid_of_set (henvironment : Documented environment)
    (hset : Sets environment key text) :
    ((laid environment base).member key.sectionName).member key.name =
      Environment.settingOf key.dotted text := by
  induction environment generalizing base with
  | nil => cases hset
  | cons entry environment ih =>
      obtain ⟨⟨first, firstText, rfl, hothers⟩, hrest⟩ := henvironment.of_cons
      rw [laid_cons]
      rcases List.mem_cons.mp hset with hfirst | hset
      · obtain ⟨hkey, rfl⟩ := Prod.mk.inj hfirst
        obtain rfl := Key.variableName_injective hkey
        rw [member_member_laid_of_unset hrest fun text hsets => hothers _ _ hsets rfl,
          member_member_layAt key key (whole_settingOf _ _), if_pos rfl]
      · exact ih hrest hset

/-- A section that some variable sets is a table. -/
theorem exists_member_laid (henvironment : Documented environment) {sectionName : String}
    (h : Touches environment sectionName ∨ ∃ members, base.member sectionName = .table members) :
    ∃ members, (laid environment base).member sectionName = .table members := by
  induction environment generalizing base with
  | nil =>
      rcases h with ⟨key, text, hsets, -⟩ | h
      · cases hsets
      · exact h
  | cons entry environment ih =>
      obtain ⟨⟨first, text, rfl, -⟩, hrest⟩ := henvironment.of_cons
      rw [laid_cons]
      apply ih hrest
      rcases member_layAt_section first base sectionName with ⟨hkept, hne⟩ | ⟨-, htable⟩
      · rw [hkept]
        rcases h with ⟨key, keyText, hsets, hsection⟩ | h
        · rcases List.mem_cons.mp hsets with hfirst | hsets
          · obtain rfl := Key.variableName_injective (Prod.mk.inj hfirst).1
            exact absurd hsection hne
          · exact .inl ⟨key, keyText, hsets, hsection⟩
        · exact .inr h
      · exact .inr htable

/-- A section that no variable sets stays as it is. -/
theorem member_laid_of_untouched (henvironment : Documented environment) {sectionName : String}
    (h : ¬ Touches environment sectionName) :
    (laid environment base).member sectionName = base.member sectionName := by
  induction environment generalizing base with
  | nil => rfl
  | cons entry environment ih =>
      obtain ⟨⟨first, text, rfl, -⟩, hrest⟩ := henvironment.of_cons
      have hne : first.sectionName ≠ sectionName :=
        fun hsection => h ⟨first, text, List.mem_cons_self, hsection⟩
      have huntouched : ¬ Touches environment sectionName := by
        rintro ⟨key, keyText, hsets, hsection⟩
        exact h ⟨key, keyText, List.mem_cons_of_mem _ hsets, hsection⟩
      rw [laid_cons, ih hrest huntouched]
      rcases member_layAt_section first base sectionName with ⟨hkept, -⟩ | ⟨hsection, -⟩
      · exact hkept
      · exact absurd hsection hne

end

/-! ## What is held for a key -/

/-- The value that is held for a key. -/
def held (setting : Setting) (key : Key) : Setting :=
  (setting.member key.sectionName).part key.name key.place

/-- A section that is a list is given up for a variable. -/
def Replaced (environment : List (String × String)) (base : Setting) (key : Key) : Prop :=
  Touches environment key.sectionName ∧ ∃ items, base.member key.sectionName = .list items

section

variable {environment : List (String × String)} {base : Setting} {key : Key} {text : String}

theorem held_laid_of_touched (henvironment : Documented environment)
    (h : Touches environment key.sectionName) :
    held (laid environment base) key =
      ((laid environment base).member key.sectionName).member key.name := by
  obtain ⟨members, htable⟩ : ∃ members, (laid environment base).member key.sectionName =
      .table members := exists_member_laid henvironment (.inl h)
  rw [held, htable, Setting.part_table]

/-- A variable that is set is all that counts for its key. -/
theorem held_laid_of_set (henvironment : Documented environment)
    (hset : Sets environment key text) :
    held (laid environment base) key = Environment.settingOf key.dotted text := by
  rw [held_laid_of_touched henvironment ⟨key, text, hset, rfl⟩,
    member_member_laid_of_set henvironment hset]

/-- A key whose variable is not set keeps its value, unless its section is replaced. -/
theorem held_laid_of_unset (henvironment : Documented environment)
    (hunset : ∀ text, ¬ Sets environment key text)
    (hkept : ¬ Replaced environment base key) :
    held (laid environment base) key = held base key := by
  by_cases htouched : Touches environment key.sectionName
  · have hnoList : ∀ items, base.member key.sectionName ≠ .list items :=
      fun items hitems => hkept ⟨htouched, items, hitems⟩
    rw [held_laid_of_touched henvironment htouched,
      member_member_laid_of_unset henvironment hunset, held, Setting.part_of_ne_list hnoList]
  · rw [held, held, member_laid_of_untouched henvironment htouched]

theorem held_laid_of_replaced (henvironment : Documented environment)
    (hunset : ∀ text, ¬ Sets environment key text) (h : Replaced environment base key) :
    held (laid environment base) key = .absent := by
  obtain ⟨htouched, items, hitems⟩ := h
  rw [held_laid_of_touched henvironment htouched,
    member_member_laid_of_unset henvironment hunset, hitems]
  rfl

end

end TopicBroker.Settings
