import FilterQuery.Proofs.Filter.Rules
import FilterQuery.Proofs.Schema.Closed
import FilterQuery.Schema.Catalog
import FilterQuery.Search.Engine

/-!
# Searching the catalog

The catalog has an engine, since it is closed, and its relations have plain names. `rareDecks` is a
filter of decks that leads through both kinds of relations, with which what is proved of all
filters can be tried.
-/

namespace FilterQuery.Catalog

theorem plainRelations_registry : registry.PlainRelations :=
  Registry.plainRelations_of_mem (by decide)

/-- An engine for the catalog. -/
def engine : Engine :=
  ⟨registry, .sqlite, .default, maxPerPage, validate_registry⟩

/-- The decks all of whose cards are of rank S and by an author with an `a` in the name. -/
def rareDecks : Filter :=
  .related (.quantified "cards" .all (.entity ⟨"card", [⟨"rank", .eq, .single (.text "S")⟩],
    [("author_user", .field ⟨"username", .contains, .single (.text "a")⟩)], [], [], [], none⟩))

theorem rawFree_rareDecks : rareDecks.RawFree := by
  refine .quantified (.entity ?_ (by simp) (by simp) (by simp) (by simp))
  rintro name f (_ | ⟨_, ⟨⟩⟩)
  exact .field _

theorem compile_rareDecks (now : Instant) :
    ∃ compiled, engine.compile "deck" rareDecks now = .ok compiled :=
  ⟨_, rfl⟩

end FilterQuery.Catalog
