import ContentGenerator.Lib.JsonUpdate
import ContentGenerator.Lib.Transition
import ContentGenerator.Workflows.ConfigLayers

/-!
# Which layer sets a configuration field

The frozen configuration of a node is to have the value of the last layer that sets a field. Every layer but
the defaults and the graph is scrubbed before it is merged, and scrubbing goes by the names of keys: it drops
`max_tokens`, whose name holds a secret-looking fragment, and all overrides of a node whose id holds one.

`ConfigLayer.frozen` is what scrubbing leaves of a layer, `resolveNode_eq` that the resolver merges exactly
that, and `config_precedence_iff` when a frozen field has the value of the last layer that sets it: when that
layer keeps the value, or what comes up in its place is read as the same (`ConfigLayer.Shown`).
-/

namespace ContentGenerator.Workflows

open Lib Lib.JsonObject List Option Json ConfigSchema

variable {field : ConfigField}

/-! ### Layers -/

/-- A layer of the configuration of a node: what it sets, whether it is scrubbed before it is merged, and the
node id it stands under where the overrides of all nodes are scrubbed as one dictionary. -/
structure ConfigLayer where
  content : JsonObject
  scrubbed : Bool := true
  nodeKey : Option String := none

def ConfigLayer.frozen (layer : ConfigLayer) : JsonObject :=
  if layer.scrubbed = false then layer.content
  else if layer.nodeKey.any isSecretKey then []
  else sanitizeMapping layer.content

/-- The value a dictionary has for a field under an alias of its name. -/
def aliasOf (content : JsonObject) (name : String) : Option Json :=
  if name = "max_tokens" then content.get "max_length" else none

/-- The value a dictionary sets for a field: under the field's name, or under its alias. -/
def setsTo (content : JsonObject) (name : String) : Option Json := (content.get name).or (aliasOf content name)

def configLayers (rows : ConfigRows) (schema : ConfigSchema) (node : GraphNode) : List ConfigLayer :=
  [{ content := schema.defaults, scrubbed := false },
    { content := JsonObject.update [] node.config, scrubbed := false },
    { content := brandContent rows.brand rows.profile },
    { content := automationContent rows.automation },
    { content := asMapping ((automationOverrides rows.automation).get node.id)
      nodeKey := some node.id },
    { content := (accountContents rows).1 },
    { content := asMapping (JsonObject.get (accountContents rows).2 node.id), nodeKey := some node.id },
    { content := runContent rows }]

/-- The last layer that has a value: those before it are given. -/
def IsLast (values : ConfigLayer → Option Json) (layers before : List ConfigLayer) (layer : ConfigLayer)
    (value : Json) : Prop :=
  values layer = some value ∧ ∃ after, layers = before ++ layer :: after ∧ ∀ later ∈ after, values later = none

/-- The value of the last layer that has one. -/
def lastValue (values : ConfigLayer → Option Json) (layers : List ConfigLayer) : Option Json :=
  layers.foldl (fun last layer ↦ (values layer).or last) none

def ConfigLayer.sets (name : String) (layer : ConfigLayer) : Option Json := setsTo layer.content name

/-- What scrubbing leaves of what the layer sets. -/
def ConfigLayer.leaves (name : String) (layer : ConfigLayer) : Option Json := setsTo layer.frozen name

/-- The layer keeps the value it sets for a field: it is not scrubbed; or it does not stand under a
secret-looking node id, the field's name is not secret-looking (or it sets the field through the alias), and
the value, where the field takes anything, holds no secret-looking key. -/
def ConfigLayer.Keeps (layer : ConfigLayer) (field : ConfigField) (value : Json) : Prop :=
  layer.scrubbed = true →
    layer.nodeKey.any isSecretKey = false ∧
      (isSecretKey field.name = true → layer.content.get field.name = none) ∧
      (field.type = .any → SecretFree value)

/-- The layer loses the field: it is scrubbed and stands under a secret-looking node id, or sets the field
under a secret-looking name and under no alias. -/
def ConfigLayer.Loses (layer : ConfigLayer) (name : String) : Prop :=
  layer.scrubbed = true ∧
    (layer.nodeKey.any isSecretKey = true ∨
      isSecretKey name = true ∧ (layer.content.get name).isSome ∧ aliasOf layer.content name = none)

/-- When the value of the last layer that sets a field is frozen. -/
inductive ConfigLayer.Shown (lax : LaxMode) (field : ConfigField) (before : List ConfigLayer)
    (layer : ConfigLayer) (value : Json) : Prop
  | kept (h : layer.Keeps field value)
  /-- It sets the field under its secret-looking name, and the same under the alias. -/
  | aliased {other : Json} (hscrubbed : layer.scrubbed = true) (hid : layer.nodeKey.any isSecretKey = false)
      (hname : isSecretKey field.name = true) (hown : layer.content.get field.name = some value)
      (halias : aliasOf layer.content field.name = some other)
      (hsame : field.read lax (some (stripSecrets other)) = field.read lax (some value))
  /-- It loses the field, and the last layer before it of which anything is left has the same. -/
  | uncovered {below : List ConfigLayer} {earlier : ConfigLayer} {other : Json} (hloses : layer.Loses field.name)
      (hearlier : IsLast (leaves field.name) before below earlier other)
      (hsame : field.read lax (some other) = field.read lax (some value))

variable {lax : LaxMode} {rows : ConfigRows} {schema : ConfigSchema} {node : GraphNode} {layer : ConfigLayer}
  {layers : List ConfigLayer} {content : JsonObject} {name : String} {value : Json}

/-! ### Aliases and copies -/

theorem get_applyKeyAliases (content : JsonObject) (name : String) :
    (applyKeyAliases content).get name = setsTo content name := by
  unfold applyKeyAliases setsTo aliasOf
  cases halias : content.get "max_length" with
  | none => rw [ite_self, or_none]
  | some value =>
    dsimp only
    by_cases hname : name = "max_tokens"
    · subst hname
      rw [if_pos rfl]
      cases hget : content.get "max_tokens" with
      | none => rw [if_neg (by simp), get_set_self, none_or]
      | some own =>
        rw [if_pos (by simp), hget]
        rfl
    · rw [if_neg hname, or_none]
      split_ifs
      · rfl
      · rw [get_set_of_ne _ _ hname]

theorem distinct_asMapping (value : Option Json) : Distinct (asMapping value) := by
  unfold asMapping
  split
  · exact distinct_nil.update _
  · exact distinct_nil

theorem distinct_applyKeyAliases {content : JsonObject} (h : Distinct content) :
    Distinct (applyKeyAliases content) := by
  unfold applyKeyAliases
  split
  · split_ifs
    · exact h
    · exact h.set _ _
  · exact h

/-- Scrubbing a copy is copying what has been scrubbed. -/
theorem asMapping_map_stripSecrets (value : Option Json) :
    asMapping (value.map stripSecrets) = sanitizeMapping (asMapping value) := by
  unfold stripSecrets sanitizeMapping
  cases value with
  | none => rfl
  | some value =>
    cases value with
    | obj fields =>
      rw [map_some, dropKeys]
      unfold asMapping
      dsimp only
      rw [dropFields_update, dropFields]
    | _ => rfl

/-! ### What scrubbing leaves -/

theorem isSecretKey_maxLength : isSecretKey "max_length" = false := by
  decide +kernel

theorem ConfigLayer.distinct_frozen (h : Distinct layer.content) : Distinct layer.frozen := by
  unfold ConfigLayer.frozen
  split_ifs
  · exact h
  · exact distinct_nil
  · exact distinct_dropFields isSecretKey h

/-- What scrubbing leaves of a field: the stripped value, unless the name is secret-looking. -/
theorem get_sanitizeMapping (content : JsonObject) (name : String) :
    (sanitizeMapping content).get name =
      if isSecretKey name then none else (content.get name).map stripSecrets := by
  unfold sanitizeMapping
  by_cases hsecret : isSecretKey name = true
  · rw [if_pos hsecret, get_dropFields_of_unwanted isSecretKey hsecret]
  · rw [if_neg hsecret, get_dropFields isSecretKey (Bool.not_eq_true _ ▸ hsecret)]
    rfl

theorem setsTo_sanitizeMapping (content : JsonObject) (name : String) :
    setsTo (sanitizeMapping content) name =
      (if isSecretKey name then aliasOf content name else setsTo content name).map stripSecrets := by
  have halias : (sanitizeMapping content).get "max_length" =
      (content.get "max_length").map stripSecrets := by
    rw [get_sanitizeMapping, isSecretKey_maxLength]
    rfl
  unfold setsTo aliasOf
  rw [get_sanitizeMapping, halias]
  by_cases hsecret : isSecretKey name = true
  · rw [if_pos hsecret, if_pos hsecret, none_or]
    split_ifs <;> rfl
  · rw [if_neg hsecret, if_neg hsecret, map_or]
    split_ifs <;> rfl

/-- What scrubbing leaves of a layer. -/
theorem ConfigLayer.leaves_eq (layer : ConfigLayer) (name : String) :
    layer.leaves name =
      if layer.scrubbed = false then layer.sets name
      else if layer.nodeKey.any isSecretKey then none
      else (if isSecretKey name then aliasOf layer.content name else layer.sets name).map stripSecrets := by
  unfold ConfigLayer.leaves ConfigLayer.frozen ConfigLayer.sets
  split_ifs with hscrubbed hid hsecret
  · rfl
  · unfold setsTo aliasOf
    rw [get_nil, get_nil, ite_self]
    rfl
  · rw [setsTo_sanitizeMapping, if_pos hsecret]
  · rw [setsTo_sanitizeMapping, if_neg hsecret]

/-- Scrubbing sets nothing new. -/
theorem ConfigLayer.leaves_of_none (h : layer.sets name = none) : layer.leaves name = none := by
  have halias : aliasOf layer.content name = none := (or_eq_none_iff.mp h).2
  rw [layer.leaves_eq, h, halias, ite_self, map_none, ite_self, ite_self]

theorem isText_stripSecrets (value : Json) : isText (stripSecrets value) = isText value := by
  cases value <;> rfl

theorem ConfigType.read_stripSecrets {type : ConfigType} (hany : type ≠ .any) (value : Json) :
    type.read lax (stripSecrets value) = type.read lax value := by
  cases hread : type.read lax value with
  | some read => rw [stripSecrets_of_read hany hread, hread]
  | none =>
    cases value with
    | obj fields => exact hread ▸ by cases type <;> first | rfl | exact absurd rfl hany
    | arr items =>
      rw [← hread]
      cases type with
      | textList =>
        have htexts : (Json.dropItems isSecretKey items).all isText = items.all isText := by
          clear hread
          induction items with
          | nil => rfl
          | cons item rest ih => rw [Json.dropItems, all_cons, all_cons, ih, ← isText_stripSecrets item, stripSecrets]
        have hnone : items.all isText = false := by
          by_contra hall
          rw [Bool.not_eq_false] at hall
          simp [ConfigType.read, hall] at hread
        unfold stripSecrets ConfigType.read
        rw [Json.dropKeys]
        dsimp only
        rw [htexts, hnone]
        rfl
      | any => exact absurd rfl hany
      | _ => rfl
    | _ => exact hread

/-- Only of a field that takes anything is something stripped. -/
theorem ConfigField.read_stripSecrets_iff {field : ConfigField} (lax : LaxMode) (value : Json) :
    field.read lax (some (stripSecrets value)) = field.read lax (some value) ↔
      (field.type = .any → SecretFree value) := by
  by_cases hany : field.type = .any
  · rw [ConfigField.read_any hany, ConfigField.read_any hany, Option.some.injEq]
    exact (Json.dropKeys_eq_self_iff isSecretKey).trans ⟨fun h _ ↦ h, fun h ↦ h hany⟩
  · refine iff_of_true ?_ fun hyes ↦ absurd hyes hany
    have hnull : stripSecrets value = .null ↔ value = .null := by
      unfold stripSecrets
      cases value <;> simp [Json.dropKeys]
    unfold ConfigField.read
    dsimp only
    rw [field.type.read_stripSecrets hany]
    simp only [hnull]

/-! ### The last layer -/

theorem lastValue_eq_some_iff {values : ConfigLayer → Option Json} :
    lastValue values layers = some value ↔ ∃ before layer, IsLast values layers before layer value := by
  constructor
  · unfold lastValue
    induction layers using reverseRecOn with
    | nil => exact fun h ↦ absurd h.symm (some_ne_none value)
    | append_singleton before last ih =>
      rw [foldl_append, foldl_cons, foldl_nil]
      intro h
      cases hsets : values last with
      | some own =>
        rw [hsets] at h
        exact ⟨before, last, hsets.trans h, [], rfl, by simp⟩
      | none =>
        rw [hsets, none_or] at h
        obtain ⟨first, layer, hlayer, after, rfl, hafter⟩ := ih h
        refine ⟨first, layer, hlayer, after ++ [last], ?_, fun later hlater ↦ ?_⟩
        · rw [append_assoc, cons_append]
        · rcases mem_append.mp hlater with hold | hnew
          · exact hafter later hold
          · rw [mem_singleton.mp hnew]
            exact hsets
  · rintro ⟨before, layer, hsets, after, rfl, hafter⟩
    unfold lastValue
    rw [foldl_append, foldl_cons, hsets]
    refine foldl_invariant (P := fun last ↦ last = some value) (fun last later hlater hvalue ↦ ?_) rfl
    rw [hafter later hlater, hvalue]
    rfl

/-- Behind the last layer that sets a field nothing is left of it. -/
theorem lastValue_leaves (hlast : IsLast (ConfigLayer.sets name) layers before layer value) :
    lastValue (ConfigLayer.leaves name) layers =
      (layer.leaves name).or (lastValue (ConfigLayer.leaves name) before) := by
  obtain ⟨-, after, rfl, hafter⟩ := hlast
  unfold lastValue
  rw [foldl_append, foldl_cons]
  refine foldl_invariant (P := fun last ↦ last = _) (fun last later hlater hvalue ↦ ?_) rfl
  rw [ConfigLayer.leaves_of_none (hafter later hlater), hvalue, none_or]

/-- A value that is not set under a secret-looking name is the one that scrubbing finds. -/
theorem ConfigLayer.found_of_sets (hsets : layer.sets name = some value)
    (hown : isSecretKey name = true → layer.content.get name = none) :
    (if isSecretKey name then aliasOf layer.content name else layer.sets name) = some value := by
  split_ifs with hsecret
  · unfold ConfigLayer.sets setsTo at hsets
    rw [hown hsecret, none_or] at hsets
    exact hsets
  · exact hsets

theorem ConfigLayer.leaves_of_loses (h : layer.Loses name) : layer.leaves name = none := by
  obtain ⟨hscrubbed, hid | ⟨hsecret, -, halias⟩⟩ := h
  · rw [layer.leaves_eq, if_neg (by simp [hscrubbed]), if_pos hid]
  · rw [layer.leaves_eq, if_pos hsecret, halias, map_none, ite_self, if_neg (by simp [hscrubbed])]

/-- The value of the last layer that sets a field is what is read exactly when it is shown; something is left
of the layers before a scrubbed one. -/
theorem read_lastValue_iff {lax : LaxMode} (hlast : IsLast (ConfigLayer.sets field.name) layers before layer value)
    (hbefore : layer.scrubbed = true → lastValue (ConfigLayer.leaves field.name) before ≠ none) :
    field.read lax (lastValue (ConfigLayer.leaves field.name) layers) = field.read lax (some value) ↔
      layer.Shown lax field before value := by
  have hsets : layer.sets field.name = some value := hlast.1
  rw [lastValue_leaves hlast]
  constructor
  · intro hread
    by_cases hscrubbed : layer.scrubbed = true
    · have hunscrubbed : layer.scrubbed ≠ false := by simp [hscrubbed]
      have huncovered : layer.Loses field.name → layer.Shown lax field before value := by
        intro hloses
        obtain ⟨other, hother⟩ := ne_none_iff_exists'.mp (hbefore hscrubbed)
        obtain ⟨below, earlier, hearlier⟩ := lastValue_eq_some_iff.mp hother
        rw [ConfigLayer.leaves_of_loses hloses, none_or, hother] at hread
        exact .uncovered hloses hearlier hread
      by_cases hid : layer.nodeKey.any isSecretKey = true
      · exact huncovered ⟨hscrubbed, .inl hid⟩
      rw [Bool.not_eq_true] at hid
      by_cases hown : isSecretKey field.name = true → layer.content.get field.name = none
      · rw [layer.leaves_eq, if_neg hunscrubbed, hid, if_neg Bool.false_ne_true,
          ConfigLayer.found_of_sets hsets hown, map_some, some_or, ConfigField.read_stripSecrets_iff] at hread
        exact .kept fun _ ↦ ⟨hid, hown, hread⟩
      · push Not at hown
        obtain ⟨hsecret, hown⟩ := hown
        obtain ⟨own, hown⟩ := ne_none_iff_exists'.mp hown
        obtain rfl : own = value := by
          unfold ConfigLayer.sets setsTo at hsets
          rw [hown, some_or] at hsets
          exact Option.some.inj hsets
        cases halias : aliasOf layer.content field.name with
        | none => exact huncovered ⟨hscrubbed, .inr ⟨hsecret, by simp [hown], halias⟩⟩
        | some other =>
          rw [layer.leaves_eq, if_neg hunscrubbed, hid, if_neg Bool.false_ne_true, if_pos hsecret, halias,
            map_some, some_or] at hread
          exact .aliased hscrubbed hid hsecret hown halias hread
    · exact .kept fun hyes ↦ absurd hyes hscrubbed
  · intro hshown
    cases hshown with
    | kept hkeeps =>
      cases hscrubbed : layer.scrubbed with
      | false => rw [layer.leaves_eq, if_pos hscrubbed, hsets, some_or]
      | true =>
        obtain ⟨hid, hown, hfree⟩ := hkeeps hscrubbed
        rw [layer.leaves_eq, if_neg (by simp [hscrubbed]), hid, if_neg Bool.false_ne_true,
          ConfigLayer.found_of_sets hsets hown, map_some, some_or, ConfigField.read_stripSecrets_iff]
        exact hfree
    | aliased hscrubbed hid hsecret _ halias hsame =>
      rw [layer.leaves_eq, if_neg (by simp [hscrubbed]), hid, if_neg Bool.false_ne_true, if_pos hsecret, halias,
        map_some, some_or, hsame]
    | uncovered hloses hearlier hsame =>
      rw [ConfigLayer.leaves_of_loses hloses, none_or, lastValue_eq_some_iff.mpr ⟨_, _, hearlier⟩, hsame]

def fieldKeys (name : String) : List String := if name = "max_tokens" then [name, "max_length"] else [name]

/-- No layer sets the field to a dictionary. -/
def PlainValues (layers : List ConfigLayer) (name : String) : Prop :=
  ∀ layer ∈ layers, ∀ key ∈ fieldKeys name, ∀ value ∈ layer.content.get key, ¬ Json.IsObj value

instance (layers : List ConfigLayer) (name : String) : Decidable (PlainValues layers name) :=
  inferInstanceAs (Decidable (∀ layer ∈ layers, ∀ key ∈ fieldKeys name,
    ∀ value ∈ layer.content.get key, ¬ Json.IsObj value))

theorem mem_fieldKeys_self (name : String) : name ∈ fieldKeys name := by
  unfold fieldKeys
  split_ifs
  · exact mem_cons_self
  · exact mem_singleton_self name

theorem maxLength_mem_fieldKeys (hname : name = "max_tokens") : "max_length" ∈ fieldKeys name := by
  unfold fieldKeys
  rw [if_pos hname]
  exact mem_cons_of_mem _ (mem_singleton_self _)

theorem isObj_stripSecrets {value : Json} : Json.IsObj (stripSecrets value) ↔ Json.IsObj value := by
  unfold stripSecrets
  cases value <;> rw [dropKeys] <;> exact Iff.rfl

/-- What is left is a scrubbed value of a layer. -/
theorem not_isObj_lastLeft (hplain : PlainValues layers name)
    (hvalue : lastValue (ConfigLayer.leaves name) layers = some value) : ¬ Json.IsObj value := by
  obtain ⟨before, layer, hleaves, after, rfl, -⟩ := lastValue_eq_some_iff.mp hvalue
  have hlayer : layer ∈ before ++ layer :: after := mem_append_right _ mem_cons_self
  have hfrozen : ∀ key ∈ fieldKeys name, ∀ value, layer.frozen.get key = some value → ¬ Json.IsObj value := by
    intro key hkey value hget
    unfold ConfigLayer.frozen at hget
    split_ifs at hget with hscrubbed hnode
    · exact hplain layer hlayer key hkey value hget
    · exact absurd hget.symm (some_ne_none value)
    · rw [get_sanitizeMapping] at hget
      split_ifs at hget with hsecret
      obtain ⟨own, hown, rfl⟩ := map_eq_some_iff.mp hget
      rw [isObj_stripSecrets]
      exact hplain layer hlayer key hkey own hown
  unfold ConfigLayer.leaves setsTo aliasOf at hleaves
  rcases or_eq_some_iff.mp hleaves with hown | ⟨-, halias⟩
  · exact hfrozen name (mem_fieldKeys_self name) value hown
  · split_ifs at halias with hname
    exact hfrozen "max_length" (maxLength_mem_fieldKeys hname) value halias

/-! ### The resolver -/

theorem frozen_nodeLayer (overrides : JsonObject) (nodeId : String) :
    ({ content := asMapping (overrides.get nodeId), nodeKey := some nodeId } : ConfigLayer).frozen =
      asMapping ((sanitizeMapping overrides).get nodeId) := by
  rw [get_sanitizeMapping]
  unfold ConfigLayer.frozen
  dsimp only
  rw [if_neg Bool.true_eq_false.mp, any_some]
  split_ifs
  · rfl
  · exact (asMapping_map_stripSecrets _).symm

theorem automationLayers_eq (automation : Option Json) :
    automationLayers automation =
      (sanitizeMapping (automationContent automation), sanitizeMapping (automationOverrides automation)) := by
  cases automation with
  | none => rfl
  | some settings => rfl

/-- The resolver validates the merge of what scrubbing leaves of the layers. -/
theorem resolveNode_eq (lax : LaxMode) (rows : ConfigRows) (node : GraphNode) :
    resolveNode lax rows node = (registeredSchema node.type node.version).bind fun schema ↦
      schema.modelValidate lax (pickAllowedKeys
        (mergeAll (schema.defaults :: (configLayers rows schema node).tail.map fun layer ↦
          applyKeyAliases layer.frozen)) (schema.fields.map ConfigField.name)) := by
  unfold resolveNode
  refine congrArg _ (funext fun schema ↦ ?_)
  unfold resolveNodeConfig configLayers
  dsimp only
  rw [automationLayers_eq, tail_cons, map_cons, map_cons, map_cons, map_cons,
    map_cons, map_cons, map_cons, map_nil, frozen_nodeLayer, frozen_nodeLayer]
  rfl

theorem distinct_accountContents (rows : ConfigRows) : Distinct (accountContents rows).1 := by
  unfold accountContents
  exact foldl_invariant (P := fun acc : JsonObject × JsonObject ↦ Distinct acc.1)
    (fun _ _ _ _ ↦ distinct_mergeAll _) distinct_nil

theorem distinct_brandContent (rows : ConfigRows) : Distinct (brandContent rows.brand rows.profile) := by
  unfold brandContent
  cases rows.profile with
  | some profile => exact distinct_mergeAll _
  | none =>
    cases rows.brand with
    | some brand => exact distinct_mergeAll _
    | none => exact distinct_nil

theorem ConfigSchema.distinct_defaults (hnames : (schema.fields.map ConfigField.name).Nodup) :
    Distinct schema.defaults := by
  unfold Distinct defaults
  rw [List.map_map]
  exact hnames

theorem distinct_configLayers (hnames : (schema.fields.map ConfigField.name).Nodup) :
    ∀ layer ∈ configLayers rows schema node, Distinct layer.content := by
  unfold configLayers
  simp only [forall_mem_cons]
  exact ⟨schema.distinct_defaults hnames, distinct_nil.update _, distinct_brandContent rows,
    distinct_mergeAll _, distinct_asMapping _, distinct_accountContents rows, distinct_asMapping _,
    distinct_mergeAll _, by simp⟩

theorem ConfigSchema.get_defaults (hnames : (schema.fields.map ConfigField.name).Nodup)
    (hfield : field ∈ schema.fields) : schema.defaults.get field.name = some field.default := by
  unfold defaults
  generalize schema.fields = fields at hnames hfield ⊢
  induction fields with
  | nil => simp at hfield
  | cons first rest ih =>
    rw [map_cons, nodup_cons] at hnames
    rw [map_cons, get_cons]
    rcases mem_cons.mp hfield with rfl | hrest
    · rw [if_pos rfl]
    · rw [if_neg fun hname : first.name = field.name ↦ hnames.1 (hname ▸ List.mem_map_of_mem hrest)]
      exact ih hnames.2 hrest

theorem get_pickAllowedKeys (payload : JsonObject) {allowed : List String} (hname : name ∈ allowed) :
    (pickAllowedKeys payload allowed).get name = payload.get name := by
  unfold pickAllowedKeys
  induction payload with
  | nil => rfl
  | cons field rest ih =>
    rw [filter_cons, get_cons]
    by_cases hfield : field.1 = name
    · rw [hfield, if_pos (decide_eq_true hname), get_cons, if_pos hfield, if_pos rfl]
    · rw [if_neg hfield]
      split_ifs
      · rw [get_cons, if_neg hfield, ih]
      · exact ih

theorem get_of_mapM_read {fields : List ConfigField} {config values : JsonObject}
    (hnames : (fields.map ConfigField.name).Nodup)
    (h : (fields.mapM fun field ↦
      (field.read lax (config.get field.name)).map fun value ↦ (field.name, value)) = some values)
    (hfield : field ∈ fields) :
    values.get field.name = field.read lax (config.get field.name) := by
  induction fields generalizing values with
  | nil => simp at hfield
  | cons first rest ih =>
    rw [map_cons, nodup_cons] at hnames
    rw [mapM_cons] at h
    obtain ⟨head, hhead, h⟩ := bind_eq_some_iff.mp h
    obtain ⟨tail, htail, h⟩ := bind_eq_some_iff.mp h
    cases h
    obtain ⟨value, hvalue, rfl⟩ := map_eq_some_iff.mp hhead
    rw [get_cons]
    rcases mem_cons.mp hfield with rfl | hrest
    · rw [if_pos rfl, hvalue]
    · rw [if_neg fun hname : first.name = field.name ↦ hnames.1 (hname ▸ List.mem_map_of_mem hrest)]
      exact ih hnames.2 htail hrest

theorem ConfigSchema.get_modelValidate {config values : JsonObject}
    (hnames : (schema.fields.map ConfigField.name).Nodup) (h : schema.modelValidate lax config = some values)
    (hfield : field ∈ schema.fields) :
    values.get field.name = field.read lax (config.get field.name) := by
  unfold modelValidate at h
  split_ifs at h
  obtain ⟨read, hread, h⟩ := bind_eq_some_iff.mp h
  split_ifs at h
  cases h
  exact get_of_mapM_read hnames hread hfield

/-- The merge has, for a declared field, the last value that scrubbing leaves. -/
theorem get_merged (hnames : (schema.fields.map ConfigField.name).Nodup)
    (hfield : field ∈ schema.fields) (hplain : PlainValues (configLayers rows schema node) field.name) :
    JsonObject.get (mergeAll (schema.defaults :: (configLayers rows schema node).tail.map fun layer ↦
        applyKeyAliases layer.frozen)) field.name =
      lastValue (ConfigLayer.leaves field.name) (configLayers rows schema node) := by
  have hdistinct : ∀ layer ∈ configLayers rows schema node, Distinct layer.content :=
    distinct_configLayers hnames
  have hdefault := schema.get_defaults hnames hfield
  have hlast : lastOf (schema.defaults :: (configLayers rows schema node).tail.map fun layer ↦
      applyKeyAliases layer.frozen) field.name =
        lastValue (ConfigLayer.leaves field.name) (configLayers rows schema node) := by
    have hfirst : ConfigLayer.leaves field.name { content := schema.defaults, scrubbed := false } =
        some field.default := by
      change setsTo schema.defaults field.name = _
      unfold setsTo
      rw [hdefault]
      rfl
    unfold lastOf lastValue
    have hlayers : configLayers rows schema node =
        { content := schema.defaults, scrubbed := false } :: (configLayers rows schema node).tail := rfl
    rw [hlayers, foldl_cons, foldl_cons, foldl_map, tail_cons, hdefault, hfirst]
    simp only [get_applyKeyAliases]
    rfl
  rw [← hlast]
  refine get_mergeAll ?_ fun value hvalue ↦ not_isObj_lastLeft hplain (hlast ▸ hvalue)
  rw [forall_mem_cons]
  refine ⟨schema.distinct_defaults hnames, fun merged hmerged ↦ ?_⟩
  obtain ⟨layer, hlayer, rfl⟩ := List.mem_map.mp hmerged
  exact distinct_applyKeyAliases (layer.distinct_frozen (hdistinct layer (mem_of_mem_tail hlayer)))

/-! ### The frozen configurations -/

/-- `resolved_node_configs[node_id]`. -/
def frozenConfig (frozen : List (String × JsonObject)) (nodeId : String) : Option JsonObject :=
  (frozen.find? fun entry ↦ entry.1 = nodeId).map Prod.snd

theorem frozenConfig_cons (entry : String × JsonObject) (frozen : List (String × JsonObject)) (nodeId : String) :
    frozenConfig (entry :: frozen) nodeId =
      if entry.1 = nodeId then some entry.2 else frozenConfig frozen nodeId := by
  unfold frozenConfig
  split_ifs with hkey
  · rw [find?_cons, decide_eq_true hkey]
    rfl
  · rw [find?_cons, decide_eq_false hkey]

/-- A node of the graph has the configuration it was resolved to. -/
theorem frozenConfig_eq {nodes : List GraphNode} {frozen : List (String × JsonObject)}
    (hids : (nodes.map GraphNode.id).Nodup)
    (hfrozen : (nodes.mapM fun node ↦ (resolveNode lax rows node).map fun config ↦ (node.id, config)) =
      some frozen) (hnode : node ∈ nodes) :
    ∃ values, resolveNode lax rows node = some values ∧ frozenConfig frozen node.id = some values := by
  induction nodes generalizing frozen with
  | nil => simp at hnode
  | cons first rest ih =>
    rw [map_cons, nodup_cons] at hids
    rw [mapM_cons] at hfrozen
    obtain ⟨head, hhead, hfrozen⟩ := bind_eq_some_iff.mp hfrozen
    obtain ⟨tail, htail, hfrozen⟩ := bind_eq_some_iff.mp hfrozen
    cases hfrozen
    obtain ⟨values, hvalues, rfl⟩ := map_eq_some_iff.mp hhead
    rw [frozenConfig_cons]
    rcases mem_cons.mp hnode with rfl | hrest
    · rw [if_pos rfl]
      exact ⟨values, hvalues, rfl⟩
    · rw [if_neg fun hid : first.id = node.id ↦ hids.1 (hid ▸ List.mem_map_of_mem hrest)]
      exact ih hids.2 htail hrest

theorem nodup_fieldNames : ∀ entry ∈ configSchemas, (entry.2.fields.map ConfigField.name).Nodup := by
  decide +kernel

theorem registeredSchema_names (h : registeredSchema node.type node.version = some schema) :
    (schema.fields.map ConfigField.name).Nodup := by
  unfold registeredSchema at h
  split_ifs at h
  obtain ⟨entry, hfind, rfl⟩ := map_eq_some_iff.mp h
  exact nodup_fieldNames entry (mem_of_find?_eq_some hfind)

theorem frozen_field_eq {graph : WorkflowGraph} {frozen : List (String × JsonObject)}
    (hids : (graph.nodes.map GraphNode.id).Nodup) (hfrozen : resolvedNodeConfigs lax rows graph = some frozen)
    (hnode : node ∈ graph.nodes) (hschema : registeredSchema node.type node.version = some schema)
    (hfield : field ∈ schema.fields) (hplain : PlainValues (configLayers rows schema node) field.name) :
    (frozenConfig frozen node.id).bind (fun config ↦ config.get field.name) =
      field.read lax (lastValue (ConfigLayer.leaves field.name) (configLayers rows schema node)) := by
  have hnames := registeredSchema_names hschema
  obtain ⟨values, hvalues, hentry⟩ := frozenConfig_eq hids hfrozen hnode
  rw [resolveNode_eq, hschema, bind_some] at hvalues
  rw [hentry, bind_some, schema.get_modelValidate hnames hvalues hfield,
    get_pickAllowedKeys _ (List.mem_map_of_mem hfield), get_merged hnames hfield hplain]

/-- What the defaults set for a declared field has layers after it that set the field, or is the last. -/
theorem exists_lastValue {values : ConfigLayer → Option Json} (first : ConfigLayer) {rest : List ConfigLayer}
    (hfirst : values first = some value) : ∃ last, lastValue values (first :: rest) = some last := by
  unfold lastValue
  rw [foldl_cons, hfirst]
  refine foldl_invariant (P := fun last : Option Json ↦ ∃ value, last = some value) ?_ ⟨value, rfl⟩
  rintro last layer - ⟨value, rfl⟩
  cases values layer with
  | some own => exact ⟨own, rfl⟩
  | none => exact ⟨value, rfl⟩

/-- A frozen field has the value of the last layer that sets it exactly when that value is shown: the layer
keeps it, or what comes up in its place is read as the same. -/
theorem config_precedence_iff {graph : WorkflowGraph} {frozen : List (String × JsonObject)}
    {field : ConfigField} (hids : (graph.nodes.map GraphNode.id).Nodup)
    (hfrozen : resolvedNodeConfigs lax rows graph = some frozen) (hnode : node ∈ graph.nodes)
    (hschema : registeredSchema node.type node.version = some schema) (hfield : field ∈ schema.fields)
    (hplain : PlainValues (configLayers rows schema node) field.name) :
    (frozenConfig frozen node.id).bind (fun config ↦ config.get field.name) =
        field.read lax (lastValue (ConfigLayer.sets field.name) (configLayers rows schema node)) ↔
      ∀ before layer value, IsLast (ConfigLayer.sets field.name) (configLayers rows schema node) before layer value →
        layer.Shown lax field before value := by
  have hdefaults : setsTo schema.defaults field.name = some field.default := by
    unfold setsTo
    rw [schema.get_defaults (registeredSchema_names hschema) hfield]
    rfl
  have hshown : ∀ before layer value,
      IsLast (ConfigLayer.sets field.name) (configLayers rows schema node) before layer value →
        (field.read lax (lastValue (ConfigLayer.leaves field.name) (configLayers rows schema node)) =
          field.read lax (some value) ↔ layer.Shown lax field before value) := by
    intro before layer value hlast
    refine read_lastValue_iff hlast fun hscrubbed ↦ ?_
    obtain ⟨-, after, hlayers, -⟩ := hlast
    -- the defaults are not scrubbed, and stand before every other layer
    cases before with
    | nil =>
      rw [nil_append] at hlayers
      rw [← (cons.inj hlayers).1] at hscrubbed
      exact absurd hscrubbed Bool.false_ne_true
    | cons first rest =>
      rw [cons_append] at hlayers
      obtain ⟨last, hleft⟩ : ∃ last, lastValue (ConfigLayer.leaves field.name) (first :: rest) = some last := by
        rw [← (cons.inj hlayers).1]
        exact exists_lastValue _ hdefaults
      rw [hleft]
      exact some_ne_none last
  obtain ⟨last, hlast⟩ : ∃ last,
      lastValue (ConfigLayer.sets field.name) (configLayers rows schema node) = some last :=
    exists_lastValue { content := schema.defaults, scrubbed := false } hdefaults
  rw [frozen_field_eq hids hfrozen hnode hschema hfield hplain, hlast]
  constructor
  · intro hread before layer value hthat
    cases Option.some.inj (hlast.symm.trans (lastValue_eq_some_iff.mpr ⟨before, layer, hthat⟩))
    exact (hshown before layer last hthat).mp hread
  · intro hall
    obtain ⟨before, layer, hthat⟩ := lastValue_eq_some_iff.mp hlast
    exact (hshown before layer last hthat).mpr (hall before layer last hthat)

/-! ### Defaults -/

/-- The default of a field has the field's type, and keeps its bounds. -/
def ConfigField.defaultChecks (field : ConfigField) : Bool :=
  match field.type, field.default with
  | .bool, .bool _ => true
  | .text pattern maxLength, .str word =>
    withinBound (word ∈ ·) pattern && withinBound (word.length ≤ ·) maxLength
  | .int ge le, .int n => withinBound (· ≤ n) ge && withinBound (n ≤ ·) le
  | .float gt ge le, .float x => withinBound (· < x) gt && withinBound (· ≤ x) ge && withinBound (x ≤ ·) le
  | .textList, .arr items => items.all isText
  | _, .null => field.optional
  | _, _ => false

theorem defaults_check : ∀ entry ∈ configSchemas, ∀ field ∈ entry.2.fields, field.defaultChecks = true := by
  decide +kernel

/-- A default that checks is read as itself. -/
theorem ConfigField.read_default (h : field.defaultChecks = true) (lax : LaxMode) :
    field.read lax (some field.default) = some field.default := by
  obtain ⟨name, type, optional, default⟩ := field
  unfold ConfigField.defaultChecks at h
  unfold ConfigField.read
  dsimp only at h ⊢
  split_ifs with hnull
  · rw [hnull.2]
  · cases type <;> cases default <;>
      simp_all [ConfigType.read, laxBool, laxInt, laxFloat]

/-- A text node that is limited to 300 tokens by the parameters of its run, under the key given. -/
def limitedRun (key : String) : ConfigRows where
  runConfig := [(key, .int 300)]

/-- The text node without a configuration of its own. -/
def plainTextNode : GraphNode := { id := "write", type := "generate_text" }

def frozenLimit (key : String) : Option Json :=
  (resolvedNodeConfigs plainMode (limitedRun key) (textGraph [])).bind fun frozen ↦
    (frozenConfig frozen "write").bind fun config ↦ config.get "max_tokens"

/-- A limit under the alias is kept: no layer but the defaults sets it under its own name. -/
theorem aliased_limit_kept :
    (frozenConfig [("write", [("max_tokens", .int 300), ("temperature", .float (7 / 10)),
        ("task", .str "default"), ("tone", .null)])] plainTextNode.id).bind
          (fun config ↦ config.get maxTokens.name) =
      maxTokens.read plainMode (lastValue (ConfigLayer.sets maxTokens.name)
        (configLayers (limitedRun "max_length") generateTextConfig plainTextNode)) := by
  have hids : ((textGraph []).nodes.map GraphNode.id).Nodup := by decide
  have hfrozen : resolvedNodeConfigs plainMode (limitedRun "max_length") (textGraph []) =
      some [("write", [("max_tokens", .int 300), ("temperature", .float (7 / 10)), ("task", .str "default"),
        ("tone", .null)])] := by decide +kernel
  have hplain : PlainValues (configLayers (limitedRun "max_length") generateTextConfig plainTextNode)
      maxTokens.name := by decide +kernel
  have hkeep : ∀ layer ∈ configLayers (limitedRun "max_length") generateTextConfig plainTextNode,
      layer.scrubbed = true → layer.nodeKey.any isSecretKey = false ∧
        layer.content.get maxTokens.name = none := by decide +kernel
  refine (config_precedence_iff hids hfrozen (mem_singleton_self _) rfl mem_cons_self hplain).mpr ?_
  rintro before layer value ⟨-, after, hlayers, -⟩
  refine .kept fun hscrubbed ↦ ?_
  obtain ⟨hid, hown⟩ := hkeep layer (hlayers ▸ mem_append_right _ mem_cons_self) hscrubbed
  exact ⟨hid, fun _ ↦ hown, fun hany ↦ nomatch hany⟩

/-- Under its own name the limit is scrubbed away, and the default is frozen. -/
theorem token_limit_lost :
    ¬ frozenLimit "max_tokens" = maxTokens.read plainMode
      (lastValue (ConfigLayer.sets maxTokens.name)
        (configLayers (limitedRun "max_tokens") generateTextConfig plainTextNode)) := by
  decide +kernel

end ContentGenerator.Workflows
