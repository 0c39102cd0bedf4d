import FilterQuery.Schema.Registry

/-!
# The card catalog

The entities of a catalog of collectable cards: cards, the users that list a card in one of their
collections, statistics on these, decks (cards grouped by the series they come from) and users.
-/

namespace FilterQuery.Catalog

/-! ## Enumerations -/

/-- The ranks of cards, rarest first. -/
def rank : ValueKind :=
  .enum ["ASS", "S", "A", "B", "C", "D", "E"]

/-- The collections in which users list cards. -/
def collection : ValueKind :=
  .enum ["TRADE", "NEED", "OWNED"]

/-- Whether a listed card is locked. -/
def lockState : ValueKind :=
  .enum ["LOCKED", "UNLOCKED"]

/-! ## Entities -/

/-- An entity with the times of creation and of the last change. -/
def timestamped (e : Entity) : Entity :=
  (e.field "created_at" .datetime).field "updated_at" .datetime

/-- Cards. -/
def card : Entity :=
  let fields := (Entity.new "card" "animestars_cards").withKey ["id"]
    |>.field "id" .uuid
    |>.field "card_id" .integer
    |>.field "name" .text
    |>.field "rank" rank
    |>.field "anime_name" .text
    |>.field "anime_link" .text
    |>.field "author" .text
    |>.field "image" .text
    |>.field "mp4" .text
    |>.field "webm" .text
  timestamped fields
    |>.withRelation "summary" ⟨"summary_card_users", .many, [("card_id", "card_id")]⟩
    |>.withRelation "stats" ⟨"card_users_stats", .many, [("card_id", "card_id")]⟩
    |>.withRelation "author_user" ⟨"animestars_user", .one, [("author", "username")]⟩

/-- How many users list a card in a collection, by lock state. -/
def summaryCardUsers : Entity :=
  let fields := (Entity.new "summary_card_users" "animestars_summary_card_users").withKey ["id"]
    |>.field "id" .uuid
    |>.field "card_id" .integer
    |>.field "collection" collection
    |>.field "state" lockState
    |>.field "count" .integer
  timestamped fields
    |>.withRelation "card" ⟨"card", .one, [("card_id", "card_id")]⟩

/-- How many users list a card in a collection. -/
def cardUsersStats : Entity :=
  let fields := (Entity.new "card_users_stats" "animestars_card_users_stats").withKey ["id"]
    |>.field "id" .uuid
    |>.field "card_id" .integer
    |>.field "collection" collection
    |>.field "count" .integer
  timestamped fields
    |>.withRelation "card" ⟨"card", .one, [("card_id", "card_id")]⟩

/-- Decks, a view on cards grouped by series. -/
def deck : Entity :=
  (Entity.new "deck" "animestars_card_deck").withKey ["anime_link"]
    |>.field "anime_link" .text
    |>.field "anime_name" .text
    |>.field "card_count" .integer
    |>.withRelation "cards" ⟨"card", .many, [("anime_link", "anime_link")]⟩

/-- Users. -/
def animestarsUser : Entity :=
  (Entity.new "animestars_user" "animestars_users").withKey ["username"]
    |>.field "username" .text
    |>.withRelation "cards" ⟨"card", .many, [("username", "author")]⟩

/-- The entities of the catalog, in the order of their registration. -/
def entities : List Entity :=
  [card, summaryCardUsers, cardUsersStats, deck, animestarsUser]

/-- Adds the entities of the catalog to a registry. -/
def register (r : Registry) : Registry × Except FilterError Unit :=
  r.registerAll entities

/-- The registry of the catalog alone. -/
def registry : Registry :=
  (register .empty).1

/-- The catalog is closed. -/
theorem validate_registry : registry.validate = .ok () := rfl

end FilterQuery.Catalog
