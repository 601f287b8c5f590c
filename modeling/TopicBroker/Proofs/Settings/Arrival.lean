import TopicBroker.Proofs.Binary64.Whole
import TopicBroker.Proofs.Settings.Environment
import TopicBroker.Proofs.Settings.Load

/-! # What arrives of a variable

A variable on its own gives a setting as it is written, unless its value looks like something that
the setting is not. Then a text arrives in the usual words for what it looks like, a single topic is
refused, and a number of 64 binary digits arrives as the nearest one that a binary64 number can
hold. -/

namespace TopicBroker.Settings

open Record

/-! ## One variable -/

/-- A variable on its own. -/
def only (key : Key) (text : String) : Sources where
  file := none
  environment := [(key.variableName, text)]

theorem given_only (key : Key) (text : String) :
    given (only key text) = .ok (.table [(key.sectionName,
      .table [(key.name, Environment.settingOf key.dotted text)])]) := by
  have hlaid : laid [(key.variableName, text)] (.table []) = .table [(key.sectionName,
      .table [(key.name, Environment.settingOf key.dotted text)])] := by
    rw [laid_cons]
    change Setting.layAt _ _ _ = _
    rw [Setting.layAt, Setting.layAt, Setting.layAt, (whole_settingOf key.dotted text).lay_eq]
    rfl
  exact congrArg Except.ok hlaid

/-- A layer that is read from a variable is laid over the standard settings. -/
theorem load_only (key : Key) {text : String} {layer : Layer}
    (hread : Record.ofSetting (.table [(key.sectionName,
      .table [(key.name, Environment.settingOf key.dotted text)])]) = .ok layer)
    (hdefect : (layer.applyTo standard).defect? = none) :
    load (only key text) = .ok (layer.applyTo standard) := by
  have hlayer : Settings.layer (only key text) = .ok layer := by
    rw [Settings.layer, given_only, ok_bind, hread]
    rfl
  rw [load, hlayer, ok_bind]
  simp only [hdefect]

section

variable {κ : Type} {V : κ → Type}
  {readValue : String → (kind : κ) → Setting → Except SettingFault (V kind)}

/-- A row without values, none of whose fields has the name. -/
inductive Without (name : String) : (fs : List (Field V)) → Row fs → Prop
  | nil : Without name [] ()
  | cons {other : String} {kind : κ} {fs : List (Field V)} {row : Row fs} (hne : other ≠ name)
      (rest : Without name fs row) : Without name (.nullable other kind :: fs) (none, row)

/-- A row with one value, which is that of the field of the name. -/
inductive Alone (name : String) (kind : κ) (value : V kind) : (fs : List (Field V)) → Row fs → Prop
  | here {fs : List (Field V)} {row : Row fs} (rest : Without name fs row) :
      Alone name kind value (.nullable name kind :: fs) (some value, row)
  | there {other : String} {otherKind : κ} {fs : List (Field V)} {row : Row fs}
      (hne : other ≠ name) (rest : Alone name kind value fs row) :
      Alone name kind value (.nullable other otherKind :: fs) (none, row)

theorem member_of_ne {other name : String} (h : other ≠ name) (setting : Setting) :
    (Setting.table [(name, setting)]).member other = .absent := by
  have hother : (other == name) = false := by simpa using h
  simp [Setting.member, Setting.members, List.lookup_cons, hother]

theorem readSettingMembers_of_ne {other name : String} {kind : κ} {fs : List (Field V)}
    {row : Row fs} {setting : Setting} (hne : other ≠ name) {key : String}
    (h : readSettingMembers readValue key (.table [(name, setting)]) fs = .ok row) :
    readSettingMembers readValue key (.table [(name, setting)]) (.nullable other kind :: fs) =
      .ok (none, row) := by
  refine readSettingMembers_cons ?_ h
  rw [member_of_ne hne]
  rfl

theorem readSettingMembers_of_without {name : String} {fs : List (Field V)} {row : Row fs}
    (h : Without name fs row) (key : String) (setting : Setting) :
    readSettingMembers readValue key (.table [(name, setting)]) fs = .ok row := by
  induction h with
  | nil => rfl
  | cons hne _ ih => exact readSettingMembers_of_ne hne ih

/-- A table with one member is read as the row with the value of that member. -/
theorem readSettingMembers_of_alone {name : String} {kind : κ} {value : V kind}
    {fs : List (Field V)} {row : Row fs} (h : Alone name kind value fs row) {key : String}
    {setting : Setting} (hthere : setting ≠ .absent)
    (hread : readValue (memberKey key name) kind setting = .ok value) :
    readSettingMembers readValue key (.table [(name, setting)]) fs = .ok row := by
  induction h with
  | here rest =>
      refine readSettingMembers_cons ?_ (readSettingMembers_of_without rest key setting)
      have hmember : (Setting.table [(name, setting)]).member name = setting := by
        simp [Setting.member, Setting.members]
      rw [hmember]
      exact Field.readSetting_nullable hthere hread
  | there hne _ ih => exact readSettingMembers_of_ne hne ih

end

theorem memberKey_memberKey (key : Key) :
    memberKey (memberKey "" key.sectionName) key.name = key.dotted := by
  cases key <;> rfl

/-- A variable on its own is laid over the standard settings, in its place. -/
theorem load_only_of_alone (key : Key) {text : String} {leaf : Leaf} {schema : FlatSchema}
    {value : leaf.Value} {row : schema.Value} {rows : (Structured.shape Layer).Value}
    (hrows : Alone key.sectionName (.record schema) row (Structured.shape Layer).fields rows)
    (hrow : Alone key.name leaf value schema.fields row)
    (hread : leaf.readSetting key.dotted (Environment.settingOf key.dotted text) = .ok value)
    (hdefect : ((Structured.ofRow rows : Layer).applyTo standard).defect? = none) :
    load (only key text) = .ok ((Structured.ofRow rows : Layer).applyTo standard) := by
  have hsection : schema.readSetting Leaf.readSetting (memberKey "" key.sectionName)
      (.table [(key.name, Environment.settingOf key.dotted text)]) = .ok row := by
    refine readSettingMembers_of_alone hrow (settingOf_ne_absent _ _) ?_
    rw [memberKey_memberKey]
    exact hread
  have hlayer : readSettingMembers Kind.readSetting "" (.table [(key.sectionName,
      .table [(key.name, Environment.settingOf key.dotted text)])])
      (Structured.shape Layer).fields = .ok rows :=
    readSettingMembers_of_alone hrows nofun hsection
  refine load_only key ?_ hdefect
  rw [Record.ofSetting, Schema.readSetting, hlayer]
  rfl

/-! ## Texts -/

/-- What arrives of a value that is for a text. -/
def shown (text : String) : String :=
  (Environment.settingOf "" text).text?.getD text

theorem readText_settingOf (key : Key) (hkey : key.dotted ≠ Environment.listKey) (text : String) :
    Leaf.text.readSetting key.dotted (Environment.settingOf key.dotted text) =
      .ok (shown text) := by
  have htext : (Environment.settingOf key.dotted text).text? = some (shown text) := by
    rcases Environment.isText_or_readAs text with h | ⟨setting, h⟩
    · rw [shown, Environment.settingOf_of_isText h hkey,
        Environment.settingOf_of_isText h (by decide)]
      rfl
    · rw [shown, Environment.settingOf_of_readAs h, Environment.settingOf_of_readAs h]
      cases h <;> rfl
  rw [Leaf.readSetting, htext]
  rfl

theorem load_only_storagePath (text : String) :
    load (only .storagePath text) =
      .ok { standard with storage := { standard.storage with path := shown text } } :=
  load_only_of_alone .storagePath
    (.there (by decide) (.there (by decide) (.there (by decide) (.here .nil))))
    (.here (.cons (by decide) .nil)) (readText_settingOf .storagePath (by decide) text) rfl

theorem load_only_host (text : String) :
    load (only .host text) =
      .ok { standard with server := { standard.server with host := shown text } } :=
  load_only_of_alone .host
    (.here (.cons (by decide) (.cons (by decide) (.cons (by decide) .nil))))
    (.here (.cons (by decide) (.cons (by decide) (.cons (by decide) .nil))))
    (readText_settingOf .host (by decide) text) rfl

/-- A value that arrives as it is written. -/
inductive Verbatim (text : String) : Prop where
  | text (isText : Environment.IsText text)
  | yes (written : text = "true")
  | no (written : text = "false")
  | integer (n : Int) (low : -9223372036854775808 ≤ n) (high : n ≤ 9223372036854775807)
      (written : text = String.ofList (Text.decimal n))
  | float (x : Binary64) (read : Environment.ReadAs text (.float x))
      (written : text = String.ofList (x.text Setting.floatLayout))

theorem shown_of_isText {text : String} (h : Environment.IsText text) : shown text = text := by
  rw [shown, Environment.settingOf_of_isText h (by decide)]
  rfl

theorem shown_of_readAs {text : String} {setting : Setting}
    (h : Environment.ReadAs text setting) : shown text = setting.text?.getD text := by
  rw [shown, Environment.settingOf_of_readAs h]

theorem shown_eq_self_iff {text : String} : shown text = text ↔ Verbatim text := by
  constructor
  · intro hshown
    rcases Environment.isText_or_readAs text with h | ⟨setting, h⟩
    · exact .text h
    · rw [shown_of_readAs h] at hshown
      cases h with
      | yes => exact .yes hshown.symm
      | no => exact .no hshown.symm
      | integer notTrue notFalse digits =>
          obtain ⟨hlow, hhigh⟩ := Environment.inRange_of_integer? digits
          exact .integer _ hlow hhigh hshown.symm
      | float notTrue notFalse notInteger digits =>
          exact .float _ (.float notTrue notFalse notInteger digits) hshown.symm
  · intro h
    cases h with
    | text isText => exact shown_of_isText isText
    | yes written => rw [written, shown_of_readAs (.yes (by decide +kernel))]; rfl
    | no written => rw [written, shown_of_readAs (.no (by decide +kernel))]; rfl
    | integer n low high written =>
        have hread : Environment.ReadAs text (.integer n) := by
          rw [written]
          refine .integer (Environment.lowered_decimal_ne n (by decide))
            (Environment.lowered_decimal_ne n (by decide)) ?_
          rw [String.toList_ofList]
          exact Environment.integer?_decimal low high
        rw [shown_of_readAs hread]
        exact written.symm
    | float x read written =>
        rw [shown_of_readAs read]
        exact written.symm

/-! ## Lists -/

theorem mapM_text? (names : List String) :
    (names.map Setting.text).mapM Setting.text? = some names := by
  induction names with
  | nil => rfl
  | cons name names ih => simp [Setting.text?, ih]

/-- Names with commas between them are read as a list of them, if they are not read as something
else. -/
theorem settingOf_intercalate {names : List String} (hne : names ≠ [])
    (hnames : ∀ name ∈ names, ',' ∉ name.toList)
    (h : Environment.IsText (",".intercalate names)) :
    Environment.settingOf Key.seedTopics.dotted (",".intercalate names) =
      .list (names.map .text) := by
  have hparts : ∀ part ∈ names.map String.toList, ',' ∉ part := by
    intro part hpart
    obtain ⟨name, hname, rfl⟩ := List.mem_map.mp hpart
    exact hnames name hname
  have hsplit :
      Environment.splitCommas (",".intercalate names).toList = names.map String.toList := by
    rw [String.toList_intercalate]
    exact Environment.splitCommas_intercalate (by simpa using hne) hparts
  have hkey : Key.seedTopics.dotted = Environment.listKey := by decide
  rw [hkey, Environment.settingOf_listKey_of_isText h, hsplit]
  simp [Function.comp_def]

theorem load_only_seedTopics {names : List String} (hne : names ≠ [])
    (hnames : ∀ name ∈ names, ',' ∉ name.toList)
    (h : Environment.IsText (",".intercalate names)) :
    load (only .seedTopics (",".intercalate names)) =
      .ok { standard with storage := { standard.storage with seedTopics := names } } := by
  have hsetting := settingOf_intercalate hne hnames h
  have hread : Leaf.texts.readSetting Key.seedTopics.dotted (.list (names.map .text)) =
      .ok names := readSetting_of_convert ((convert_texts _).trans (mapM_text? names)) _
  rw [← hsetting] at hread
  exact load_only_of_alone .seedTopics
    (.there (by decide) (.there (by decide) (.there (by decide) (.here .nil))))
    (.there (by decide) (.here .nil)) hread rfl

theorem load_only_seedTopics_of_readAs {text : String} {setting : Setting}
    (h : Environment.ReadAs text setting) :
    load (only .seedTopics text) = .error (.setting (.misplaced Key.seedTopics.dotted)) := by
  have hsetting := Environment.settingOf_of_readAs h Key.seedTopics.dotted
  rw [load, layer, given_only, hsetting]
  cases h <;> rfl

theorem isText_intercalate_of_several {names : List String} (h : 1 < names.length) :
    Environment.IsText (",".intercalate names) := by
  apply Environment.isText_of_comma
  match names with
  | first :: second :: names =>
      rw [String.toList_intercalate, List.map_cons, List.map_cons, List.intercalate_cons_cons]
      simp

/-! ## Numbers -/

/-- The number that arrives of a number: itself, unless it takes 64 binary digits. -/
def arriving (n : Quantity) : Nat :=
  if n.val < 9223372036854775808 then n.val
  else min (Binary64.nearest n.val) Setting.largest

theorem arriving_lt (n : Quantity) : arriving n < 18446744073709551616 := by
  have hn := n.isLt
  simp only [arriving, Setting.largest]
  split <;> omega

theorem arriving_eq_self_iff {n : Quantity} :
    arriving n = n.val ↔
      n.val < 9223372036854775808 ∨ 2048 ∣ n.val ∨ n.val = 18446744073709551615 := by
  have hn := n.isLt
  unfold arriving
  split
  · next hsmall => exact iff_of_true rfl (.inl hsmall)
  · next hlarge =>
      rw [or_iff_right hlarge, ← Binary64.nearest_eq_self_iff]
      constructor
      · intro hself
        rcases Nat.le_total (Binary64.nearest n.val) Setting.largest with hle | hle
        · exact .inl ((Nat.min_eq_left hle).symm.trans hself)
        · exact .inr (hself.symm.trans (Nat.min_eq_right hle))
      · rintro (hself | hlast)
        · rw [hself]
          exact Nat.min_eq_left (by simp only [Setting.largest]; omega)
        · rw [hlast]
          decide

theorem decimal_natCast (n : Nat) : Text.decimal n = Text.digits n := by
  simp [Text.decimal]

theorem natural?_float {x : Binary64} {k : Int} (h : x.round? = some k) :
    (Setting.float x).natural? = some (min k.toNat Setting.largest) := by
  cases x with
  | finite negative significand exponent => simp [Setting.natural?, h]
  | infinite negative => cases h
  | notANumber => cases h

theorem natural?_settingOf (n : Quantity) :
    (Environment.settingOf Key.messageTtl.dotted (String.ofList (Text.digits n.val))).natural? =
      some (arriving n) := by
  have hword : ∀ word : String, 'e' ∈ word.toList →
      Environment.lowered (String.ofList (Text.digits n.val)) ≠ word := by
    intro word hletter
    rw [← decimal_natCast]
    exact Environment.lowered_decimal_ne n.val hletter
  by_cases hsmall : n.val < 9223372036854775808
  · have hread : Environment.ReadAs (String.ofList (Text.digits n.val)) (.integer n.val) := by
      refine .integer (hword _ (by decide)) (hword _ (by decide)) ?_
      rw [String.toList_ofList, ← decimal_natCast]
      exact Environment.integer?_decimal (by omega) (by omega)
    rw [Environment.settingOf_of_readAs hread, arriving, if_pos hsmall]
    simp [Setting.natural?]
  · have hread : Environment.ReadAs (String.ofList (Text.digits n.val))
        (.float (Binary64.ofScientific false n.val 0)) := by
      refine .float (hword _ (by decide)) (hword _ (by decide)) ?_ ?_
      · rw [String.toList_ofList]
        exact Environment.integer?_digits_of_large (by omega)
      · rw [String.toList_ofList]
        exact Environment.float?_digits n.val
    have hround := Binary64.round?_ofScientific (Nat.le_of_not_lt hsmall) n.isLt
    rw [Environment.settingOf_of_readAs hread, natural?_float hround, arriving, if_neg hsmall]
    rfl

theorem member?_ofFin {name : String} {bound : Nat} (n : Fin bound) :
    (IntRange.below name bound).member? n.val = some (IntRange.ofFin n) := by
  have hn := n.isLt
  have hrange : (0 : Int) ≤ (n.val : Int) ∧ (n.val : Int) ≤ (bound : Int) - 1 := by omega
  exact dif_pos hrange

theorem load_only_of_natural? {text : String} {n : Quantity}
    (h : (Environment.settingOf Key.messageTtl.dotted text).natural? = some n.val) :
    load (only .messageTtl text) =
      .ok { standard with broker := { standard.broker with messageTtl := n } } := by
  have hread : (Leaf.integer .nat64).readSetting Key.messageTtl.dotted
      (Environment.settingOf Key.messageTtl.dotted text) = .ok (IntRange.ofFin n) := by
    rw [Leaf.readSetting, h]
    exact congrArg (converted _) (member?_ofFin n)
  have hbroker : (Flat.ofRow (some (IntRange.ofFin n), none, ()) : BrokerLayer) =
      ⟨some n, none⟩ := by
    simp [Flat.ofRow]
  have hload := load_only_of_alone .messageTtl
    (.there (by decide) (.there (by decide) (.here (.cons (by decide) .nil))))
    (.here (.cons (by decide) .nil)) hread rfl
  rw [hload]
  exact congrArg (fun broker : BrokerLayer => Except.ok
    (({ Layer.empty with broker } : Layer).applyTo standard)) hbroker

theorem load_only_messageTtl (n : Quantity) :
    load (only .messageTtl (String.ofList (Text.digits n.val))) =
      .ok { standard with
        broker := { standard.broker with messageTtl := ⟨arriving n, arriving_lt n⟩ } } :=
  load_only_of_natural? (natural?_settingOf n)

/-! ## All values -/

/-- What arrives of a text, of some names of topics and of a number, each from a variable that is set
on its own. -/
structure Arrivals (text : String) (names : List String) (n : Quantity) : Prop where
  path : load (only .storagePath text) =
    .ok { standard with storage := { standard.storage with path := shown text } }
  host : load (only .host text) =
    .ok { standard with server := { standard.server with host := shown text } }
  /-- A text arrives as it is written if it looks like nothing else, or is written in the usual way
  for what it looks like. -/
  verbatim : shown text = text ↔ Verbatim text
  /-- Topics arrive if their names together look like nothing else. -/
  topics : names ≠ [] → (∀ name ∈ names, ',' ∉ name.toList) →
    Environment.IsText (",".intercalate names) →
      load (only .seedTopics (",".intercalate names)) =
        .ok { standard with storage := { standard.storage with seedTopics := names } }
  /-- More than one name looks like nothing else. -/
  several : 1 < names.length → Environment.IsText (",".intercalate names)
  /-- A single name that looks like something else is refused. -/
  refused : ¬ Environment.IsText (",".intercalate names) →
    load (only .seedTopics (",".intercalate names)) =
      .error (.setting (.misplaced "storage.seed_topics"))
  ttl : load (only .messageTtl (String.ofList (Text.digits n.val))) =
    .ok { standard with
      broker := { standard.broker with messageTtl := ⟨arriving n, arriving_lt n⟩ } }
  /-- A number of 64 binary digits arrives as it is written if a binary64 number holds it, or if it
  is the largest, which larger ones go to. -/
  exact : arriving n = n.val ↔
    n.val < 9223372036854775808 ∨ 2048 ∣ n.val ∨ n.val = 18446744073709551615

/-- Values arrive as they are written, but for those that look like something that their setting is
not. -/
theorem values_arrive (text : String) (names : List String) (n : Quantity) :
    Arrivals text names n where
  path := load_only_storagePath text
  host := load_only_host text
  verbatim := shown_eq_self_iff
  topics := load_only_seedTopics
  several := isText_intercalate_of_several
  refused h := by
    obtain ⟨setting, hread⟩ := (Environment.isText_or_readAs _).resolve_left h
    exact load_only_seedTopics_of_readAs hread
  ttl := load_only_messageTtl n
  exact := arriving_eq_self_iff

/-- A path of digits loses the zeros in front, a topic of digits cannot be seeded, and a large
number is off by one. -/
theorem not_arrives_digits :
    (load (only .storagePath "007")).map (·.storage.path) = .ok "7" ∧
      (load (only .seedTopics "2024")).map (·.storage.seedTopics) =
        .error (.setting (.misplaced "storage.seed_topics")) ∧
      (load (only .messageTtl "9223372036854775809")).map (·.broker.messageTtl.val) =
        .ok 9223372036854775808 := by
  decide +kernel

end TopicBroker.Settings
