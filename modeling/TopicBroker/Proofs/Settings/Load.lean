import TopicBroker.Proofs.Settings.Keys
import TopicBroker.Settings.Load

/-! # What settings are taken from

Each setting is what its variable gives, or else what the file gives, or else the standard one. No
setting depends on what is given for another one, but where a file gives a section as a list. -/

namespace TopicBroker.Settings

open Record

/-! ## Layers -/

namespace Key

/-- What a layer gives for a key. -/
def given? : (key : Key) → Layer → Option key.Value
  | host, layer => layer.server.host
  | port, layer => layer.server.port.map IntRange.ofFin
  | acceptTimeout, layer => layer.server.acceptTimeout.map IntRange.ofFin
  | shutdownGrace, layer => layer.server.shutdownGrace.map IntRange.ofFin
  | publisherWorkers, layer => layer.pools.publisherWorkers.map IntRange.ofFin
  | subscriberWorkers, layer => layer.pools.subscriberWorkers.map IntRange.ofFin
  | publisherFirst, layer => layer.pools.publisherFirst.map IntRange.ofFin
  | publisherLast, layer => layer.pools.publisherLast.map IntRange.ofFin
  | subscriberFirst, layer => layer.pools.subscriberFirst.map IntRange.ofFin
  | subscriberLast, layer => layer.pools.subscriberLast.map IntRange.ofFin
  | messageTtl, layer => layer.broker.messageTtl.map IntRange.ofFin
  | mailboxCapacity, layer => layer.broker.mailboxCapacity.map IntRange.ofFin
  | storagePath, layer => layer.storage.path
  | seedTopics, layer => layer.storage.seedTopics

theorem get_applyTo (key : Key) (layer : Layer) (base : Settings) :
    key.get (layer.applyTo base) = (key.given? layer).getD (key.get base) := by
  cases key with
  | host | storagePath | seedTopics => rfl
  | _ =>
      simp only [get, given?, Layer.applyTo]
      exact (Option.getD_map IntRange.ofFin _ _).symm

end Key

theorem map_ofFin_map_toFin {name : String} {bound : Nat}
    (value : Option (IntRange.below name bound).Member) :
    (value.map IntRange.toFin).map IntRange.ofFin = value := by
  cases value with
  | none => rfl
  | some n =>
      have hn := n.property
      simp only [IntRange.below] at hn
      have hvalue : ((n.val.toNat : Nat) : Int) = n.val := Int.toNat_of_nonneg hn.1
      exact congrArg some (Subtype.ext hvalue)

section

variable {setting : Setting} {key : String}

theorem takes_of_comesFrom {name : String} {leaf : Leaf} {place : Nat} {value : Option leaf.Value}
    (h : ComesFrom Leaf.readSetting setting place ⟨name, leaf, .nullable⟩ value) :
    leaf.Takes (setting.part name place) value := by
  obtain ⟨key, hread⟩ := h
  rcases Field.cases_of_readSetting_nullable hread with ⟨habsent, rfl⟩ | ⟨hthere, v, hv, rfl⟩
  · rw [habsent]
    exact .absent
  · refine .given hthere ?_
    rw [← toOption_readSetting key, hv]
    rfl

theorem cases_of_readSection {name : String} {schema : FlatSchema} {value : Option schema.Value}
    (h : Field.readSetting Kind.readSetting key (sectionField name schema) setting = .ok value) :
    (setting = .absent ∧ value = none) ∨ ∃ row : schema.Value, value = some row ∧
      Row.All (ComesFrom Leaf.readSetting setting) 0 schema.fields row := by
  rcases Field.cases_of_readSetting_nullable h with habsent | ⟨-, row, hrow, rfl⟩
  · exact .inl habsent
  · exact .inr ⟨row, rfl, comesFrom_of_readSetting hrow⟩

theorem takes_server {value : Option (Flat.schema ServerLayer).Value}
    (h : Field.readSetting Kind.readSetting key (sectionField "server" (Flat.schema ServerLayer))
      setting = .ok value) :
    let layer := (value.map Flat.ofRow).getD Layer.empty.server
    Leaf.text.Takes (setting.part "host" 0) layer.host ∧
      (Leaf.integer .nat16).Takes (setting.part "port" 1) (layer.port.map IntRange.ofFin) ∧
      (Leaf.integer .nat64).Takes (setting.part "accept_timeout_secs" 2)
        (layer.acceptTimeout.map IntRange.ofFin) ∧
      (Leaf.integer .nat64).Takes (setting.part "shutdown_grace_secs" 3)
        (layer.shutdownGrace.map IntRange.ofFin) := by
  rcases cases_of_readSection h with ⟨rfl, rfl⟩ | ⟨row, rfl, hall⟩
  · exact ⟨.absent, .absent, .absent, .absent⟩
  · obtain ⟨hhost, hport, haccept, hgrace, -⟩ := hall
    simp only [Option.map_some, Option.getD_some, Flat.ofRow, map_ofFin_map_toFin]
    exact ⟨takes_of_comesFrom hhost, takes_of_comesFrom hport, takes_of_comesFrom haccept,
      takes_of_comesFrom hgrace⟩

theorem takes_pools {value : Option (Flat.schema PoolLayer).Value}
    (h : Field.readSetting Kind.readSetting key (sectionField "pools" (Flat.schema PoolLayer))
      setting = .ok value) :
    let layer := (value.map Flat.ofRow).getD Layer.empty.pools
    (Leaf.integer .count).Takes (setting.part "publisher_workers" 0)
        (layer.publisherWorkers.map IntRange.ofFin) ∧
      (Leaf.integer .count).Takes (setting.part "subscriber_workers" 1)
        (layer.subscriberWorkers.map IntRange.ofFin) ∧
      (Leaf.integer .nat16).Takes (setting.part "publisher_port_start" 2)
        (layer.publisherFirst.map IntRange.ofFin) ∧
      (Leaf.integer .nat16).Takes (setting.part "publisher_port_end" 3)
        (layer.publisherLast.map IntRange.ofFin) ∧
      (Leaf.integer .nat16).Takes (setting.part "subscriber_port_start" 4)
        (layer.subscriberFirst.map IntRange.ofFin) ∧
      (Leaf.integer .nat16).Takes (setting.part "subscriber_port_end" 5)
        (layer.subscriberLast.map IntRange.ofFin) := by
  rcases cases_of_readSection h with ⟨rfl, rfl⟩ | ⟨row, rfl, hall⟩
  · exact ⟨.absent, .absent, .absent, .absent, .absent, .absent⟩
  · obtain ⟨hpublishers, hsubscribers, hfirst, hlast, hnext, hend, -⟩ := hall
    simp only [Option.map_some, Option.getD_some, Flat.ofRow, map_ofFin_map_toFin]
    exact ⟨takes_of_comesFrom hpublishers, takes_of_comesFrom hsubscribers,
      takes_of_comesFrom hfirst, takes_of_comesFrom hlast, takes_of_comesFrom hnext,
      takes_of_comesFrom hend⟩

theorem takes_broker {value : Option (Flat.schema BrokerLayer).Value}
    (h : Field.readSetting Kind.readSetting key (sectionField "broker" (Flat.schema BrokerLayer))
      setting = .ok value) :
    let layer := (value.map Flat.ofRow).getD Layer.empty.broker
    (Leaf.integer .nat64).Takes (setting.part "message_ttl_secs" 0)
        (layer.messageTtl.map IntRange.ofFin) ∧
      (Leaf.integer .count).Takes (setting.part "mailbox_capacity" 1)
        (layer.mailboxCapacity.map IntRange.ofFin) := by
  rcases cases_of_readSection h with ⟨rfl, rfl⟩ | ⟨row, rfl, hall⟩
  · exact ⟨.absent, .absent⟩
  · obtain ⟨httl, hmailbox, -⟩ := hall
    simp only [Option.map_some, Option.getD_some, Flat.ofRow, map_ofFin_map_toFin]
    exact ⟨takes_of_comesFrom httl, takes_of_comesFrom hmailbox⟩

theorem takes_storage {value : Option (Flat.schema StorageLayer).Value}
    (h : Field.readSetting Kind.readSetting key (sectionField "storage" (Flat.schema StorageLayer))
      setting = .ok value) :
    let layer := (value.map Flat.ofRow).getD Layer.empty.storage
    Leaf.text.Takes (setting.part "path" 0) layer.path ∧
      Leaf.texts.Takes (setting.part "seed_topics" 1) layer.seedTopics := by
  rcases cases_of_readSection h with ⟨rfl, rfl⟩ | ⟨row, rfl, hall⟩
  · exact ⟨.absent, .absent⟩
  · obtain ⟨hpath, hseed, -⟩ := hall
    exact ⟨takes_of_comesFrom hpath, takes_of_comesFrom hseed⟩

end

/-- What a layer gives for a key is what the setting that it is read from holds for it. -/
theorem takes_of_ofSetting {members : List (String × Setting)} {layer : Layer}
    (h : Record.ofSetting (.table members) = .ok layer) (key : Key) :
    key.leaf.Takes (held (.table members) key) (key.given? layer) := by
  obtain ⟨row, hread, rfl⟩ := exists_of_map_eq_ok h
  obtain ⟨⟨_, hserver⟩, ⟨_, hpools⟩, ⟨_, hbroker⟩, ⟨_, hstorage⟩, -⟩ :=
    comesFrom_of_readSetting hread
  cases key with
  | host => exact (takes_server hserver).1
  | port => exact (takes_server hserver).2.1
  | acceptTimeout => exact (takes_server hserver).2.2.1
  | shutdownGrace => exact (takes_server hserver).2.2.2
  | publisherWorkers => exact (takes_pools hpools).1
  | subscriberWorkers => exact (takes_pools hpools).2.1
  | publisherFirst => exact (takes_pools hpools).2.2.1
  | publisherLast => exact (takes_pools hpools).2.2.2.1
  | subscriberFirst => exact (takes_pools hpools).2.2.2.2.1
  | subscriberLast => exact (takes_pools hpools).2.2.2.2.2
  | messageTtl => exact (takes_broker hbroker).1
  | mailboxCapacity => exact (takes_broker hbroker).2
  | storagePath => exact (takes_storage hstorage).1
  | seedTopics => exact (takes_storage hstorage).2

/-! ## Loading -/

/-- What a file gives on its own. -/
def ofFile (file : Option String) : Setting :=
  match fileSettings file with
  | .ok source => Setting.layAll source (.table [])
  | .error _ => .absent

/-- Where the value of a key comes from: its variable, or else the file, or else the standard
settings. -/
inductive Comes (sources : Sources) (key : Key) : key.Value → Prop where
  | environment {text : String} {value : key.Value} (set : Sets sources.environment key text)
      (converted : key.leaf.convert (Environment.settingOf key.dotted text) = some value) :
      Comes sources key value
  | file {value : key.Value} (unset : ∀ text, ¬ Sets sources.environment key text)
      (kept : ¬ Replaced sources.environment (ofFile sources.file) key)
      (there : held (ofFile sources.file) key ≠ .absent)
      (converted : key.leaf.convert (held (ofFile sources.file) key) = some value) :
      Comes sources key value
  | standard (unset : ∀ text, ¬ Sets sources.environment key text)
      (missing : held (ofFile sources.file) key = .absent ∨
        Replaced sources.environment (ofFile sources.file) key) :
      Comes sources key (key.get standard)

/-- Settings that are loaded are good, and were read from what the variables leave of the file. -/
theorem exists_of_load {sources : Sources} {settings : Settings}
    (h : load sources = .ok settings) :
    settings.defect? = none ∧ ∃ (layer : Layer) (members : List (String × Setting)),
      settings = layer.applyTo standard ∧
        laid sources.environment (ofFile sources.file) = .table members ∧
          Record.ofSetting (.table members) = .ok layer := by
  obtain ⟨layer, hlayer, hchecked⟩ := exists_of_bind_eq_ok h
  obtain ⟨setting, hgiven, hread⟩ := exists_of_bind_eq_ok hlayer
  obtain ⟨source, hsource, hsetting⟩ := exists_of_bind_eq_ok hgiven
  have hfile : ofFile sources.file = Setting.layAll source (.table []) := by
    rw [ofFile, hsource]
  obtain ⟨base, hbase⟩ := Setting.exists_layAll_eq source []
  obtain ⟨members, hmembers⟩ :=
    Setting.exists_layAll_eq (Environment.settings sources.environment) base
  have hlaid : laid sources.environment (ofFile sources.file) = .table members := by
    rw [hfile, hbase, laid, hmembers]
  have hsame : setting = .table members := by
    rw [← hlaid, hfile]
    exact (Except.ok.inj hsetting).symm
  simp only at hchecked
  have hdefect : settings.defect? = none ∧ settings = layer.applyTo standard := by
    cases hnone : (layer.applyTo standard).defect? with
    | some defect =>
        rw [hnone] at hchecked
        cases hchecked
    | none =>
        rw [hnone] at hchecked
        obtain rfl := Except.ok.inj hchecked
        exact ⟨hnone, rfl⟩
  exact ⟨hdefect.1, layer, members, hdefect.2, hlaid, hsame ▸ eq_ok_of_mapError hread⟩

theorem comes_of_load {sources : Sources} {settings : Settings}
    (henvironment : Documented sources.environment) (hload : load sources = .ok settings)
    (key : Key) : Comes sources key (key.get settings) := by
  obtain ⟨-, layer, members, rfl, hlaid, hread⟩ := exists_of_load hload
  have htakes := takes_of_ofSetting hread key
  rw [← hlaid] at htakes
  rw [Key.get_applyTo]
  by_cases hset : ∃ text, Sets sources.environment key text
  · obtain ⟨text, hset⟩ := hset
    rw [held_laid_of_set henvironment hset] at htakes
    obtain ⟨value, hvalue, hconverted⟩ := htakes.exists_convert (settingOf_ne_absent _ _)
    rw [hvalue]
    exact .environment hset hconverted
  · have hunset : ∀ text, ¬ Sets sources.environment key text := not_exists.mp hset
    by_cases hreplaced : Replaced sources.environment (ofFile sources.file) key
    · rw [held_laid_of_replaced henvironment hunset hreplaced] at htakes
      rw [htakes.eq_none]
      exact .standard hunset (.inr hreplaced)
    · rw [held_laid_of_unset henvironment hunset hreplaced] at htakes
      by_cases hthere : held (ofFile sources.file) key = .absent
      · rw [hthere] at htakes
        rw [htakes.eq_none]
        exact .standard hunset (.inl hthere)
      · obtain ⟨value, hvalue, hconverted⟩ := htakes.exists_convert hthere
        rw [hvalue]
        exact .file hunset hreplaced hthere hconverted

/-- Two sources are alike as far as a key goes: in its variable, in what the file holds for it, and
in whether its section is replaced. -/
structure Alike (sources other : Sources) (key : Key) : Prop where
  environment : ∀ text, Sets other.environment key text ↔ Sets sources.environment key text
  file : held (ofFile other.file) key = held (ofFile sources.file) key
  replaced : Replaced other.environment (ofFile other.file) key ↔
    Replaced sources.environment (ofFile sources.file) key

/-- A key has one value. -/
theorem Comes.unique {sources other : Sources} {key : Key} {value otherValue : key.Value}
    (henvironment : Documented sources.environment) (halike : Alike sources other key)
    (h : Comes sources key value) (hother : Comes other key otherValue) : otherValue = value := by
  cases h with
  | environment set converted =>
      cases hother with
      | environment otherSet otherConverted =>
          obtain rfl := henvironment.text_unique set ((halike.environment _).mp otherSet)
          exact Option.some.inj (otherConverted.symm.trans converted)
      | file unset | standard unset => exact absurd ((halike.environment _).mpr set) (unset _)
  | file unset kept there converted =>
      cases hother with
      | environment otherSet => exact absurd ((halike.environment _).mp otherSet) (unset _)
      | file _ _ _ otherConverted =>
          rw [halike.file] at otherConverted
          exact Option.some.inj (otherConverted.symm.trans converted)
      | standard _ missing =>
          rw [halike.file, halike.replaced] at missing
          exact absurd missing (not_or.mpr ⟨there, kept⟩)
  | standard unset missing =>
      cases hother with
      | environment otherSet => exact absurd ((halike.environment _).mp otherSet) (unset _)
      | file _ kept there =>
          rw [halike.replaced] at kept
          rw [halike.file] at there
          exact absurd missing (not_or.mpr ⟨there, kept⟩)
      | standard => rfl

/-! ## Files as they are written -/

/-- The members of a file whose names are names and nothing more, and of which none is given
twice. -/
structure Plain (members : List (String × Setting)) : Prop where
  names : ∀ name ∈ members.map Prod.fst, name ≠ "" ∧ ∀ c ∈ name.toList, Setting.isNameChar c = true
  once : (members.map Prod.fst).Nodup
  inSections : ∀ sectionName inner, members.lookup sectionName = some (.table inner) →
    (inner.map Prod.fst).Nodup

/-- What a plain file gives for a key is what stands there. -/
theorem held_ofFile {file : Option String} {members : List (String × Setting)}
    (hfile : fileSettings file = .ok members) (hplain : Plain members) {key : Key}
    (hwhole : (held (.table members) key).Whole) :
    held (ofFile file) key = held (.table members) key := by
  have hpaths : ∀ name ∈ members.map Prod.fst, Setting.pathOf name = [.name name] := by
    intro name hname
    obtain ⟨hne, hchars⟩ := hplain.names name hname
    exact Setting.pathOf_of_isName hne hchars
  have hsection := Setting.member_layAll hplain.once hpaths (.table []) key.sectionName
  have hmember : (Setting.table members).member key.sectionName =
      (members.lookup key.sectionName).getD .absent := rfl
  have hempty : (Setting.table []).member key.sectionName = .absent := rfl
  simp only [ofFile, hfile, held] at hwhole ⊢
  rw [hmember] at hwhole ⊢
  rw [hsection, hempty]
  cases hlookup : members.lookup key.sectionName with
  | none => rfl
  | some setting =>
      simp only [hlookup, Option.getD_some] at hwhole ⊢
      cases setting with
      | table inner =>
          have hmembers := Setting.member_layMembers (hplain.inSections _ inner hlookup) [] key.name
          rw [Setting.lay_table_absent, Setting.part_table, hmembers]
          have hinner : (Setting.table inner).part key.name key.place =
              (inner.lookup key.name).getD .absent := rfl
          rw [hinner] at hwhole ⊢
          cases hname : inner.lookup key.name with
          | none => rfl
          | some value =>
              rw [hname] at hwhole
              exact hwhole.lay_eq _
      | _ => simp only [Setting.lay]

/-! ## All sources -/

/-- How the settings that are loaded come from their sources. -/
structure Layered (sources : Sources) (settings : Settings) : Prop where
  /-- Whatever the sources are, the settings are good. -/
  valid : settings.defect? = none
  each : Documented sources.environment → ∀ key : Key, Comes sources key (key.get settings)
  /-- What another source has different for other keys makes no difference. -/
  independent : Documented sources.environment → ∀ other otherSettings,
    Documented other.environment → load other = .ok otherSettings →
      ∀ key : Key, Alike sources other key → key.get otherSettings = key.get settings
  /-- What a plain file gives for a key is what stands there under its name. -/
  plain : ∀ members, fileSettings sources.file = .ok members → Plain members →
    ∀ key : Key, (held (.table members) key).Whole →
      held (ofFile sources.file) key = held (.table members) key

/-- Every setting is what its variable gives, or else what the file gives, or else the standard one,
whatever is given for the others. A section that is a list in the file gives nothing if a variable
gives some of it. -/
theorem settings_layered {sources : Sources} {settings : Settings}
    (hload : load sources = .ok settings) : Layered sources settings where
  valid := (exists_of_load hload).1
  each henvironment := comes_of_load henvironment hload
  independent henvironment _ _ hdocumented hother key halike :=
    (comes_of_load henvironment hload key).unique henvironment halike
      (comes_of_load hdocumented hother key)
  plain _ hfile hplain _ hwhole := held_ofFile hfile hplain hwhole

/-- A file and a variable for the same section. -/
def twoLayers : Sources where
  file := some "[server]\nhost = \"0.0.0.0\"\nport = 9000\n[broker]\n"
  environment := [("IMQ_SERVER__PORT", "7070"), ("IMQ_STORAGE__SEED_TOPICS", "golang,java")]

theorem settings_layered_twoLayers :
    ∃ settings, Documented twoLayers.environment ∧ load twoLayers = .ok settings ∧
      Layered twoLayers settings ∧ settings = { standard with
        server := { standard.server with host := "0.0.0.0", port := ⟨7070, by decide⟩ }
        storage := { standard.storage with seedTopics := ["golang", "java"] } } := by
  have henvironment : Documented twoLayers.environment := ⟨by decide +kernel, by decide +kernel⟩
  have hload : load twoLayers = .ok { standard with
      server := { standard.server with host := "0.0.0.0", port := ⟨7070, by decide⟩ }
      storage := { standard.storage with seedTopics := ["golang", "java"] } } := by
    decide +kernel
  exact ⟨_, henvironment, hload, settings_layered hload, rfl⟩

/-- A file that gives a section as a list, and a variable for the same section. -/
def listAndVariable : Sources where
  file := some "server = [\"h\", 1, 2, 3]\n"
  environment := [("IMQ_SERVER__PORT", "5")]

/-- With the variable for the port the host of the file is lost. -/
theorem not_layered_listAndVariable :
    (∀ text, ¬ Sets listAndVariable.environment .host text) ∧
      (load { listAndVariable with environment := [] }).map (·.server.host) = .ok "h" ∧
        (load listAndVariable).map (·.server.host) = .ok standard.server.host := by
  refine ⟨?_, by decide +kernel, by decide +kernel⟩
  intro text hsets
  have hname : Key.host.variableName = "IMQ_SERVER__PORT" :=
    (Prod.mk.inj (List.mem_singleton.mp hsets)).1
  exact absurd hname (by decide)

end TopicBroker.Settings
