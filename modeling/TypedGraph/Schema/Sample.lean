import TypedGraph.Schema.Basic

/-!
# Schema/Sample — a small schema with one of each

Users and bots are nodes, and both are actors; a user embeds an address and lists posts.  An
address is a place.
-/

namespace TypedGraph.Schema

/-- The schema of users, bots, addresses and posts. -/
def sample : Schema := ⟨[
  ("User", {
    name := "User"
    kind := .object
    fields := [
      ⟨"id", "ID", .scalar⟩,
      ⟨"name", "String", .scalar⟩,
      ⟨"age", "Int", .numeric⟩,
      ⟨"score", "Float", .numeric⟩,
      ⟨"address", "Address", .object⟩,
      ⟨"tags", "String", .scalarList⟩,
      ⟨"scores", "Int", .scalarList⟩,
      ⟨"posts", "Post", .objectList⟩,
      ⟨"friends", "User", .nodeList⟩,
      ⟨"bestFriend", "User", .node⟩,
      ⟨"followers", "UserConnection", .connection⟩]
    possibleTypes := []
    isNode := true }),
  ("Bot", {
    name := "Bot"
    kind := .object
    fields := [⟨"id", "ID", .scalar⟩, ⟨"name", "String", .scalar⟩]
    possibleTypes := []
    isNode := true }),
  ("Address", {
    name := "Address"
    kind := .object
    fields := [⟨"city", "String", .scalar⟩, ⟨"zip", "String", .scalar⟩]
    possibleTypes := []
    isNode := false }),
  ("Post", {
    name := "Post"
    kind := .object
    fields := [⟨"title", "String", .scalar⟩, ⟨"likes", "Int", .numeric⟩]
    possibleTypes := []
    isNode := false }),
  ("Actor", {
    name := "Actor"
    kind := .union
    fields := []
    possibleTypes := ["User", "Bot"]
    isNode := true }),
  ("Place", {
    name := "Place"
    kind := .interface
    fields := [⟨"city", "String", .scalar⟩]
    possibleTypes := ["Address"]
    isNode := false })]⟩

end TypedGraph.Schema
