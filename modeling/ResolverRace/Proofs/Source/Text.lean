import ResolverRace.Proofs.Text.Blank
import ResolverRace.Source.Basic
import ResolverRace.Source.UserList

/-!
# Sources and lists are read as they are written

* `Source.parse_custom` — how the text of a source is read, whatever its id is; `Source.parse_text`,
  `Source.parse_custom_iff` — it is read back unless blanks stand around the id.
* `UserList.allOfDatum?_map` — lists are read back from their records.
-/

namespace ResolverRace
open Text

/-- An id that is not empty and has no blanks around it. -/
structure Source.IsId (id : String) : Prop where
  ne_nil : id.toList ≠ []
  trimmed : trimChars id.toList = id.toList

namespace Source

/-- How the text of a source with any id is read: blanks around the id are lost, and an id without
anything else is none. -/
theorem parse_custom (id : String) : parse (Source.custom id).text =
    if (trimChars id.toList).isEmpty then .error (.unknownList "custom:")
    else .ok (.custom (Text.trim id)) := by
  have htext : (Source.custom id).text.toList = marker ++ id.toList := String.toList_append
  have hmarker : marker.all (!isBlank ·) = true := by decide
  have hword : ∀ c ∈ marker, isBlank c = false := by simpa using hmarker
  have hlower : lowerChars (marker ++ trimEnd id.toList) =
      'c' :: lowerChars ("ustom:".toList ++ trimEnd id.toList) := rfl
  have hbuiltin : namesBuiltin (marker ++ trimEnd id.toList) = false := by
    simp [namesBuiltin, hlower]
  have hprefix : marker.isPrefixOf (marker ++ trimEnd id.toList) = true :=
    List.isPrefixOf_iff_prefix.2 (List.prefix_append _ _)
  rw [parse, htext, trimChars_append hword (by decide), parseTrimmed, if_neg (by simp [hbuiltin])]
  simp only [List.drop_left, trimChars_trimEnd, hprefix, Bool.true_and]
  cases hid : (trimChars id.toList).isEmpty with
  | true =>
    rw [trimEnd_eq_nil (List.isEmpty_iff.1 hid)]
    rfl
  | false => rfl

/-- A source is read back from its text. -/
theorem parse_text {source : Source} (h : ∀ id, source = .custom id → IsId id) :
    parse source.text = .ok source := by
  cases source with
  | builtin => rfl
  | custom id =>
    obtain ⟨hne, htrimmed⟩ := h id rfl
    rw [parse_custom, htrimmed, if_neg (by simpa using hne), Text.trim, htrimmed, String.ofList_toList]

/-- Only a source with a trimmed id is read back. -/
theorem parse_custom_iff {id : String} :
    parse (Source.custom id).text = .ok (.custom id) ↔ IsId id := by
  refine ⟨fun h => ?_, fun h => parse_text fun _ hid => Source.custom.inj hid ▸ h⟩
  rw [parse_custom] at h
  split at h
  · cases h
  · rename_i hne
    have hid : Text.trim id = id := Source.custom.inj (Except.ok.inj h)
    have htrimmed : trimChars id.toList = id.toList :=
      String.toList_ofList.symm.trans (congrArg String.toList hid)
    exact ⟨fun hnil => hne (by rw [htrimmed, hnil]; rfl), htrimmed⟩

end Source

namespace UserList

/-- What is read back one by one is read back as a list. -/
theorem mapM_map_eq_some {α β : Type} {write : α → β} {read : β → Option α}
    (h : ∀ a, read (write a) = some a) (as : List α) : (as.map write).mapM read = some as := by
  induction as with
  | nil => rfl
  | cons a as ih => simp [h a, ih]

theorem asTexts?_texts (texts : List String) :
    (Datum.list (texts.map .text)).asTexts? = some texts := by
  have htext (s : String) : (Datum.text s).asText? = some s := rfl
  exact mapM_map_eq_some htext texts

theorem Draft.set_id (d : Draft) (h : d.id = none) (id : String) :
    d.set ("id", .text id) = some { d with id := some id } := by
  rw [set, h]
  rfl

theorem Draft.set_name (d : Draft) (h : d.name = none) (name : String) :
    d.set ("name", .text name) = some { d with name := some name } := by
  rw [set, h]
  rfl

theorem Draft.set_resolvers (d : Draft) (h : d.resolvers = none) (texts : List String) :
    d.set ("resolvers", .list (texts.map .text)) = some { d with resolvers := some texts } := by
  rw [set, h, asTexts?_texts]
  rfl

theorem ofDatum?_toDatum (strict : Bool) (l : UserList) : ofDatum? strict l.toDatum = some l := by
  simp only [ofDatum?, toDatum, Datum.fields?, Option.bind_eq_bind, Option.bind_some,
    List.foldlM_cons, List.foldlM_nil, Draft.set_id, Draft.set_name, Draft.set_resolvers]
  rfl

/-- Lists are read back from their records. -/
theorem allOfDatum?_map (strict : Bool) (lists : List UserList) :
    allOfDatum? strict (.list (lists.map toDatum)) = some lists :=
  mapM_map_eq_some (ofDatum?_toDatum strict) lists

end UserList
end ResolverRace
