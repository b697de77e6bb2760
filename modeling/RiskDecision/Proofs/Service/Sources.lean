import RiskDecision.Proofs.Service.Atomicity
import RiskDecision.Proofs.Service.Run

/-!
# Where catalogs come from

A caller may build a catalog itself, or a whole payload of catalogs and reports. Whatever else is
loaded was read from an array of entries, and then the catalog and the report are about the same
domain and the same rules (`Call.Read.loads`).
-/

namespace RiskDecision.Service

/-- The catalog and the report on it were made of entries for a domain. -/
def FromEntries (c : Catalog × LoadReport) : Prop :=
  ∃ domain entries, c = Catalog.ofEntries domain entries

/-- The call brings no payload that was not read. -/
def Call.Read : Call → Prop
  | .loadBundle b => ∃ e payload, Bundle.ofJsonBy e payload = .ok b
  | _ => True

variable {c : Catalog × LoadReport}

theorem fromEntries_of_toOption {ε : Type} {source : Except ε (Catalog × LoadReport)}
    {domain : String} {input : Option (List Json)}
    (h : source.toOption = input.map (Catalog.ofEntries domain)) (hc : source.toOption = some c) :
    FromEntries c := by
  rw [h] at hc
  obtain ⟨entries, -, rfl⟩ := Option.map_eq_some_iff.mp hc
  exact ⟨domain, entries, rfl⟩

theorem fromEntries_of_ofJsonBy {e : Enumeration} {payload : Json} {b : Bundle}
    (h : Bundle.ofJsonBy e payload = .ok b) (hc : c ∈ b.catalogs) : FromEntries c := by
  cases hmembers : Bundle.members? payload with
  | none =>
      obtain ⟨f, hf⟩ := Bundle.ofJsonBy_of_none hmembers e
      rw [hf] at h
      exact nomatch h
  | some members =>
      rw [Bundle.ofJsonBy_of_some hmembers e] at h
      cases h
      obtain ⟨m, -, hm⟩ := List.mem_filterMap.mp hc
      exact fromEntries_of_toOption (Catalog.toOption_ofJson m.1 m.2) hm

theorem fromEntries_of_catalogsOfFiles {files : List (String × Entry)}
    (hc : c ∈ catalogsOfFiles files) : FromEntries c := by
  obtain ⟨e, -, he⟩ := List.mem_filterMap.mp hc
  exact fromEntries_of_toOption (toOption_catalogOfFile e.1 (some e.2)) he

/-- **SOURCES**: what a call loads was built by the caller or read from entries. -/
theorem Call.Read.loads {call : Call} (h : call.Read) (hc : c ∈ call.loads) :
    call = .loadCatalog c.1 ∧ c.2 = reportOf c.1 ∨ FromEntries c := by
  cases call with
  | loadCatalog catalog =>
      obtain rfl := List.mem_singleton.mp hc
      exact Or.inl ⟨rfl, rfl⟩
  | loadText domain text =>
      exact Or.inr
        (fromEntries_of_toOption (Catalog.toOption_ofText domain text) (Option.mem_toList.mp hc))
  | loadBundle b =>
      obtain ⟨e, payload, hb⟩ := h
      exact Or.inr (fromEntries_of_ofJsonBy hb hc)
  | loadFile name entry =>
      exact Or.inr
        (fromEntries_of_toOption (toOption_catalogOfFile name entry) (Option.mem_toList.mp hc))
  | loadDirectory directory =>
      rw [Call.loads, catalogsOfDirectory] at hc
      split at hc
      · exact absurd hc List.not_mem_nil
      · exact Or.inr (fromEntries_of_catalogsOfFiles hc)
  | _ => exact absurd hc List.not_mem_nil

/-- The report on a catalog is about the domain of the catalog. -/
theorem Call.Read.domain {call : Call} (h : call.Read) (hc : c ∈ call.loads) :
    c.2.domain = c.1.domain := by
  rcases h.loads hc with ⟨-, hreport⟩ | ⟨domain, entries, rfl⟩
  · rw [hreport]
    rfl
  · rfl

end RiskDecision.Service
