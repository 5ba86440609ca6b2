/-
How network resources are spelled.

A network resource is read as a set of fields.  Blanks do not count, nor does the case of letters.
The order of the fields counts only where a key stands twice, since the later value is taken, and
of several ports the last one that is not empty.

* `NetResource.fields`, `NetResource.entries` — the fields of a line, and what they say;
* `NetResource.ofEntries` — the network resource that some entries describe;
* `NetResource.Respelling` — a line that differs in a blank, in the case of a letter or in the order
  of its fields.

Main statements:
* `ofEntries_concat` — what one entry more changes;
* `setField_eq_ok_iff`, `foldlM_setField_eq_ok_iff` — a field adds its entry, and so do all fields;
* `parse_eq_ok_iff` — which lines are read, and as what;
* `valuesOf_eq_of_perm` — the order of entries with different keys does not count;
* `parse_respelled` — so lines that say the same are read as one network resource.
-/
import TypeEnforcement.Project.NetResource
import TypeEnforcement.Proofs.LetterCase

namespace TypeEnforcement.NetResource

/-! ### Fields -/

/-- A text without its spaces and tabs. -/
def compact (text : String) : String :=
  String.ofList (text.toList.filter fun c => c != ' ' && c != '\t')

/-- The fields of a line. -/
def fields (line : String) : List String :=
  Text.split ',' (compact line)

/-- The key and the value of a field, as they are read. -/
def entryOf? (field : String) : Option (String × String) :=
  (splitField? field).map (Prod.map normalize normalize)

/-- The keys and the values of a line. -/
def entries (line : String) : List (String × String) :=
  (fields line).filterMap entryOf?

/-- The port of a value; zero, if the value is none. -/
def portOf (value : String) : Nat :=
  (Text.readBounded maxPort value).getD 0

/-- A key of network resources, with a value for it. -/
def IsKnown (entry : String × String) : Prop :=
  entry.1 ∈ ["domain", "type", "protocol"] ∨
    entry.1 = "port" ∧ (entry.2 = "" ∨ portOf entry.2 ≠ 0)

/-- A field that may stand in a network resource. -/
def IsReadable (field : String) : Prop :=
  ∃ entry, entryOf? field = some entry ∧ IsKnown entry

/-- The values for a key, in the order of the entries. -/
def valuesOf (key : String) (entries : List (String × String)) : List String :=
  (entries.filter (·.1 = key)).map Prod.snd

/-- The network resource that some entries describe.  The last value counts; an empty port is
none. -/
def ofEntries (entries : List (String × String)) : NetResource where
  family := (valuesOf "domain" entries).getLast?.getD ""
  socketType := (valuesOf "type" entries).getLast?.getD ""
  protocol := (valuesOf "protocol" entries).getLast?.getD ""
  port := portOf (((valuesOf "port" entries).filter (· ≠ "")).getLast?.getD "")

/-- A family, a type or a protocol is named. -/
def IsNamed (resource : NetResource) : Prop :=
  resource.family ≠ "" ∨ resource.socketType ≠ "" ∨ resource.protocol ≠ ""

variable {line other field value : String} {before : List (String × String)}
  {resource : NetResource}

theorem entryOf?_empty : entryOf? "" = none := by
  decide +kernel

theorem portOf_eq_zero (h : ∀ port, Text.readBounded maxPort value = some (port + 1) → False) :
    portOf value = 0 := by
  unfold portOf
  match hread : Text.readBounded maxPort value with
  | none => rfl
  | some 0 => rfl
  | some (port + 1) => exact absurd hread (h port)

theorem isNamed_iff : resource.IsNamed ↔
    ¬(resource.family = "" ∧ resource.socketType = "" ∧ resource.protocol = "") := by
  rw [IsNamed]
  tauto

theorem valuesOf_concat (key : String) (before : List (String × String))
    (entry : String × String) : valuesOf key (before ++ [entry]) =
      valuesOf key before ++ if entry.1 = key then [entry.2] else [] := by
  rw [valuesOf, List.filter_append, List.map_append]
  by_cases hkey : entry.1 = key <;> simp [valuesOf, hkey]

/-- One entry more changes what its key stands for, unless it is an empty port. -/
theorem ofEntries_concat (before : List (String × String)) (key value : String) :
    ofEntries (before ++ [(key, value)]) = {
      family := if key = "domain" then value else (ofEntries before).family
      socketType := if key = "type" then value else (ofEntries before).socketType
      protocol := if key = "protocol" then value else (ofEntries before).protocol
      port := if key = "port" ∧ value ≠ "" then portOf value else (ofEntries before).port } := by
  have hlast (name : String) : (valuesOf name (before ++ [(key, value)])).getLast?.getD "" =
      if key = name then value else (valuesOf name before).getLast?.getD "" := by
    rw [valuesOf_concat]
    split <;> simp
  have hport : ((valuesOf "port" (before ++ [(key, value)])).filter (· ≠ "")).getLast?.getD "" =
      if key = "port" ∧ value ≠ "" then value
      else ((valuesOf "port" before).filter (· ≠ "")).getLast?.getD "" := by
    rw [valuesOf_concat, List.filter_append]
    by_cases hkey : key = "port" <;> by_cases hvalue : value = "" <;> simp [hkey, hvalue]
  simp only [ofEntries, hlast, hport, apply_ite portOf]

theorem mem_valuesOf {key : String} : value ∈ valuesOf key before ↔ (key, value) ∈ before := by
  simp [valuesOf]

/-! ### Reading -/

/-- A field adds its entry to those that describe a network resource. -/
theorem setField_eq_ok_iff : setField line (ofEntries before) field = .ok resource ↔
    ∃ entry, entryOf? field = some entry ∧ IsKnown entry ∧
      resource = ofEntries (before ++ [entry]) := by
  unfold setField entryOf?
  cases splitField? field with
  | none => simp
  | some pair =>
    obtain ⟨key, value⟩ := pair
    simp only [Option.map_some, Prod.map_apply, Option.some.injEq, exists_eq_left']
    generalize normalize key = key
    generalize normalize value = value
    split
    · simp [IsKnown, ofEntries_concat, eq_comm]
    · simp [IsKnown, ofEntries_concat, eq_comm]
    · simp [IsKnown, ofEntries_concat, eq_comm]
    · split
      · rename_i hempty
        simp [IsKnown, ofEntries_concat, hempty, eq_comm]
      · rename_i hvalue
        split
        · rename_i port hport
          have hnumber : portOf value = port + 1 := by rw [portOf, hport, Option.getD_some]
          simp [IsKnown, ofEntries_concat, hvalue, hnumber, eq_comm]
        · rename_i hport
          simp [IsKnown, hvalue, portOf_eq_zero hport]
    -- No other key is known, so the entry is not, and the field is refused.
    · rename_i hdomain htype hprotocol hport
      have hunknown : ¬IsKnown (key, value) := by
        rintro (hkey | ⟨hkey, -⟩)
        · simp only [List.mem_cons, List.not_mem_nil, or_false] at hkey
          rcases hkey with hkey | hkey | hkey
          · exact hdomain hkey
          · exact htype hkey
          · exact hprotocol hkey
        · exact hport hkey
      simp [hunknown]

/-- Fields add their entries one after another. -/
theorem foldlM_setField_eq_ok_iff {fields : List String} :
    fields.foldlM (setField line) (ofEntries before) = .ok resource ↔
      (∀ field ∈ fields, IsReadable field) ∧
        resource = ofEntries (before ++ fields.filterMap entryOf?) := by
  -- What is read so far is always what the entries so far describe.
  induction fields generalizing before with
  | nil =>
    rw [List.foldlM_nil, List.filterMap_nil, List.append_nil]
    exact ⟨fun h => ⟨List.forall_mem_nil _, (Except.ok.inj h).symm⟩, fun ⟨_, h⟩ => h ▸ rfl⟩
  | cons field rest ih =>
    simp only [List.foldlM_cons, bind_eq_ok_iff, setField_eq_ok_iff, List.forall_mem_cons]
    constructor
    · rintro ⟨_, ⟨entry, hentry, hknown, rfl⟩, hrest⟩
      obtain ⟨hall, hresource⟩ := ih.1 hrest
      refine ⟨⟨⟨entry, hentry, hknown⟩, hall⟩, ?_⟩
      rw [hresource, List.filterMap_cons_some hentry, List.append_assoc, List.singleton_append]
    · rintro ⟨⟨⟨entry, hentry, hknown⟩, hall⟩, hresource⟩
      refine ⟨_, ⟨entry, hentry, hknown, rfl⟩, ih.2 ⟨hall, ?_⟩⟩
      rw [hresource, List.filterMap_cons_some hentry, List.append_assoc, List.singleton_append]

/-- The checks of a line and the reading of its fields, one after another. -/
theorem parse_eq (line : String) : parse line =
    if maxFields < (fields line).length then .error (.permission (.tooManyFields line))
    else ((fields line).filter (· ≠ "")).foldlM (setField line) {} >>= fun resource =>
      if resource.family = "" ∧ resource.socketType = "" ∧ resource.protocol = "" then
        .error (.permission (.nothingNamed line))
      else .ok resource :=
  rfl

theorem ite_error_eq_ok_iff {c : Prop} [Decidable c] {fault : Fault} {found : NetResource} :
    (if c then .error fault else .ok found : Except Fault NetResource) = .ok resource ↔
      ¬c ∧ found = resource := by
  split <;> simp_all

/-- A line is read if it has few enough fields, each of which is empty or may stand in a network
resource, and if it names something. -/
theorem parse_eq_ok_iff : parse line = .ok resource ↔
    (fields line).length ≤ maxFields ∧
      (∀ field ∈ fields line, field ≠ "" → IsReadable field) ∧
      resource = ofEntries (entries line) ∧ resource.IsNamed := by
  have hentries : ((fields line).filter (· ≠ "")).filterMap entryOf? = entries line := by
    rw [List.filterMap_filter]
    refine List.filterMap_congr fun field _ => ?_
    by_cases hempty : field = "" <;> simp [hempty, entryOf?_empty]
  have hstart : ({} : NetResource) = ofEntries [] := by decide +kernel
  rw [parse_eq, ← Nat.not_lt]
  split
  · rename_i hmany
    exact iff_of_false (fun h => by cases h) fun h => h.1 hmany
  · rename_i hfew
    simp only [bind_eq_ok_iff, hstart, foldlM_setField_eq_ok_iff, hentries, ite_error_eq_ok_iff,
      ← isNamed_iff, List.nil_append, List.mem_filter, decide_eq_true_eq, and_imp, hfew,
      not_false_eq_true, true_and]
    constructor
    · rintro ⟨found, ⟨hall, rfl⟩, hnamed, rfl⟩
      exact ⟨hall, rfl, hnamed⟩
    · rintro ⟨hall, rfl, hnamed⟩
      exact ⟨_, ⟨hall, rfl⟩, hnamed, rfl⟩

theorem isKnown_of_mem_entries (h : ∀ field ∈ fields line, field ≠ "" → IsReadable field) :
    ∀ entry ∈ entries line, IsKnown entry := by
  intro entry hentry
  obtain ⟨field, hfield, hread⟩ := List.mem_filterMap.1 hentry
  have hne : field ≠ "" := by
    rintro rfl
    cases entryOf?_empty.symm.trans hread
  obtain ⟨found, hfound, hknown⟩ := h field hfield hne
  rwa [Option.some.inj (hread.symm.trans hfound)]

/-- The port is left open just if every field for it is empty. -/
theorem port_eq_zero_iff (h : parse line = .ok resource) :
    resource.port = 0 ↔ ∀ value, ("port", value) ∈ entries line → value = "" := by
  obtain ⟨-, hall, rfl, -⟩ := parse_eq_ok_iff.1 h
  simp only [← mem_valuesOf]
  cases hlast : ((valuesOf "port" (entries line)).filter (· ≠ "")).getLast? with
  | none =>
    have hopen : portOf "" = 0 := by decide +kernel
    refine iff_of_true ?_ ?_
    · rwa [ofEntries, hlast]
    · simpa using List.getLast?_eq_none_iff.1 hlast
  | some port =>
    obtain ⟨hport, hne⟩ := List.mem_filter.1 (List.mem_of_getLast? hlast)
    have hne : port ≠ "" := by simpa using hne
    refine iff_of_false ?_ fun hempty => hne (hempty port hport)
    rw [ofEntries, hlast, Option.getD_some]
    rcases isKnown_of_mem_entries hall _ (mem_valuesOf.1 hport) with hkey | ⟨-, hvalue⟩
    · simp at hkey
    · exact hvalue.resolve_left hne

/-! ### Blanks -/

theorem fields_insert {front back : List Char} {c : Char} (hc : c = ' ' ∨ c = '\t') :
    fields (String.ofList (front ++ c :: back)) = fields (String.ofList (front ++ back)) := by
  rcases hc with rfl | rfl <;> simp [fields, compact]

/-- A line may be cut into its fields with the blanks in them. -/
theorem fields_eq_map (line : String) : fields line = (Text.split ',' line).map compact := by
  have hcomma : ∀ c : Char, (c == ',') = true → (c != ' ' && c != '\t') = true := by
    intro c hc
    rw [beq_iff_eq.1 hc]
    rfl
  rw [fields, compact, Text.split, Text.split, String.toList_ofList, Text.pieces_filter hcomma,
    List.map_map, List.map_map]
  refine List.map_congr_left fun piece _ => ?_
  rw [Function.comp_apply, Function.comp_apply, compact, String.toList_ofList]

/-! ### Letters -/

theorem fields_toLower (line : String) :
    fields line.toLower = (fields line).map String.toLower := by
  have hblank : (fun c : Char => c != ' ' && c != '\t') ∘ Char.toLower =
      fun c => c != ' ' && c != '\t' :=
    funext (Text.apply_toLower (f := fun c => c != ' ' && c != '\t') (by decide))
  have hcompact : compact line.toLower = (compact line).toLower := by
    rw [compact, Text.toList_toLower, List.filter_map, hblank, Text.ofList_map_toLower, compact]
  rw [fields, hcompact, Text.split_toLower (by decide), fields]

theorem normalize_toLower (text : String) : normalize text.toLower = normalize text := by
  rw [normalize, normalize, Text.trim, Text.trim, Text.toList_toLower,
    Text.trimBlanks_map Text.isBlank_toLower, String.toList_ofList, String.toList_ofList,
    Text.lowercase_map_toLower]

theorem splitField?_toLower (field : String) : splitField? field.toLower =
    (splitField? field).map (Prod.map String.toLower String.toLower) := by
  rw [splitField?, splitField?, Text.split_toLower (by decide)]
  rcases Text.split ':' field with _ | ⟨_, _ | ⟨_, _ | _⟩⟩ <;> rfl

theorem entryOf?_toLower (field : String) : entryOf? field.toLower = entryOf? field := by
  have hnormalize : normalize ∘ String.toLower = normalize := funext normalize_toLower
  rw [entryOf?, entryOf?, splitField?_toLower, Option.map_map, Prod.map_comp_map, hnormalize]

/-- The case of letters does not count. -/
theorem parse_toLower (line : String) :
    parse line.toLower = .ok resource ↔ parse line = .ok resource := by
  have hentries : entries line.toLower = entries line := by
    rw [entries, fields_toLower, List.filterMap_map]
    exact List.filterMap_congr fun field _ => entryOf?_toLower field
  have hempty (field : String) : field.toLower ≠ "" ↔ field ≠ "" := by
    rw [ne_eq, ne_eq, ← String.toList_inj, ← String.toList_inj, Text.toList_toLower]
    simp
  rw [parse_eq_ok_iff, parse_eq_ok_iff, hentries, fields_toLower, List.length_map,
    List.forall_mem_map]
  simp only [IsReadable, entryOf?_toLower, hempty]

/-! ### Order -/

/-- Entries with different keys give each key the same values in any order. -/
theorem valuesOf_eq_of_perm {after : List (String × String)} (h : before.Perm after)
    (hkeys : (before.map Prod.fst).Nodup) (key : String) :
    valuesOf key before = valuesOf key after := by
  have hperm : (valuesOf key before).Perm (valuesOf key after) := (h.filter _).map _
  have hlength : (valuesOf key before).length ≤ 1 := by
    have hsame : (before.filter (·.1 = key)).map Prod.fst =
        List.replicate (valuesOf key before).length key := by
      rw [List.eq_replicate_iff]
      simp [valuesOf]
    rw [← List.nodup_replicate (a := key), ← hsame]
    exact hkeys.sublist (List.filter_sublist.map _)
  -- Two orders of at most one value are the same.
  match hvalues : valuesOf key before with
  | [] => exact (List.nil_perm.1 (hvalues ▸ hperm)).symm
  | [value] => exact List.singleton_perm.1 (hvalues ▸ hperm)
  | _ :: _ :: _ => simp [hvalues] at hlength

theorem fields_perm (h : (Text.split ',' line).Perm (Text.split ',' other)) :
    (fields line).Perm (fields other) := by
  rw [fields_eq_map, fields_eq_map]
  exact h.map compact

/-- The order of fields with different keys does not count. -/
theorem parse_of_perm (h : (Text.split ',' line).Perm (Text.split ',' other))
    (hkeys : ((entries line).map Prod.fst).Nodup) (hparse : parse line = .ok resource) :
    parse other = .ok resource := by
  obtain ⟨hfew, hall, rfl, hnamed⟩ := parse_eq_ok_iff.1 hparse
  have hfields := fields_perm h
  have hentries : (entries line).Perm (entries other) := hfields.filterMap entryOf?
  refine parse_eq_ok_iff.2 ⟨by rwa [← hfields.length_eq], fun field hfield => ?_, ?_, hnamed⟩
  · exact hall field (hfields.mem_iff.2 hfield)
  · simp only [ofEntries, valuesOf_eq_of_perm hentries hkeys]

/-! ### Spellings -/

/-- A line with one blank more, with a letter of ASCII in the other case, or with its fields in
another order, if no two of them have the same key. -/
inductive Respelling : String → String → Prop
  | blank (front back : List Char) {c : Char} (hc : c = ' ' ∨ c = '\t') :
    Respelling (String.ofList (front ++ back)) (String.ofList (front ++ c :: back))
  | letter (front back : List Char) {c d : Char} (hletter : c.toLower = d.toLower) :
    Respelling (String.ofList (front ++ c :: back)) (String.ofList (front ++ d :: back))
  | order {line other : String} (hfields : (Text.split ',' line).Perm (Text.split ',' other))
    (hkeys : ((entries line).map Prod.fst).Nodup) : Respelling line other

theorem Respelling.parse_iff (h : Respelling line other) :
    parse line = .ok resource ↔ parse other = .ok resource := by
  cases h with
  | blank front back hc => rw [parse_eq_ok_iff, parse_eq_ok_iff, entries, entries, fields_insert hc]
  | @letter front back c d hletter =>
    have hlower : (String.ofList (front ++ c :: back)).toLower =
        (String.ofList (front ++ d :: back)).toLower := by
      rw [← Text.ofList_map_toLower, ← Text.ofList_map_toLower]
      simp [hletter]
    -- Both lines are compared with their common lower case.
    rw [← parse_toLower, hlower, parse_toLower]
  | order hfields hkeys =>
    have hentries : (entries line).Perm (entries other) := (fields_perm hfields).filterMap entryOf?
    have hback : ((entries other).map Prod.fst).Nodup := (hentries.map Prod.fst).nodup hkeys
    exact ⟨parse_of_perm hfields hkeys, parse_of_perm hfields.symm hback⟩

/-- Lines that differ in blanks, in the case of letters and in the order of fields with different
keys are read as the same network resource, or none of them is read.  What is read names a family, a
type or a protocol, and its port is left open just if every field for the port is empty. -/
theorem parse_respelled (h : Relation.EqvGen Respelling line other) (resource : NetResource) :
    (parse line = .ok resource ↔ parse other = .ok resource) ∧
    (parse line = .ok resource →
      (resource.family ≠ "" ∨ resource.socketType ≠ "" ∨ resource.protocol ≠ "") ∧
      (resource.port = 0 ↔ ∀ value, ("port", value) ∈ entries line → value = "")) := by
  constructor
  · induction h with
    | rel _ _ hrel => exact hrel.parse_iff
    | refl => exact Iff.rfl
    | symm _ _ _ ih => exact ih.symm
    | trans _ _ _ _ _ hfirst hsecond => exact hfirst.trans hsecond
  · intro hparse
    exact ⟨(parse_eq_ok_iff.1 hparse).2.2.2, port_eq_zero_iff hparse⟩

/-- A line with a blank and a capital, and the same fields in another order. -/
theorem blanksAndCapitals_respelled :
    Relation.EqvGen Respelling "Domain:inet, port:80" "port:80,domain:inet" ∧
    parse "port:80,domain:inet" = .ok { family := "inet", port := 80 } ∧
    parse "Domain:inet, port:80" = .ok { family := "inet", port := 80 } ∧
    (80 = 0 ↔ ∀ value, ("port", value) ∈ entries "Domain:inet, port:80" → value = "") := by
  have hblank : Respelling "Domain:inet,port:80" "Domain:inet, port:80" :=
    .blank "Domain:inet,".toList "port:80".toList (.inl rfl)
  have hletter : Respelling "Domain:inet,port:80" "domain:inet,port:80" :=
    .letter [] "omain:inet,port:80".toList rfl
  have horder : Respelling "domain:inet,port:80" "port:80,domain:inet" :=
    .order (by decide +kernel) (by decide +kernel)
  have hrespelled : Relation.EqvGen Respelling "Domain:inet, port:80" "port:80,domain:inet" :=
    .trans _ _ _ (.symm _ _ (.rel _ _ hblank)) (.trans _ _ _ (.rel _ _ hletter) (.rel _ _ horder))
  have hparse : parse "port:80,domain:inet" = .ok { family := "inet", port := 80 } :=
    toOption_eq_some_iff.1 (by decide +kernel)
  obtain ⟨hsame, hread⟩ := parse_respelled hrespelled { family := "inet", port := 80 }
  have hfirst := hsame.2 hparse
  exact ⟨hrespelled, hparse, hfirst, (hread hfirst).2⟩

end TypeEnforcement.NetResource
