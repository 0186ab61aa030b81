import SqlMapper.Proofs.Relation.Parent
import SqlMapper.Proofs.Schema.Resolved
/-!
# Apart — join tables whose two keys have one column

The two key columns of a join table are resolved apart from each other, one from the name of the owner and one from the
name of the related model, and nothing compares them.  Where they are the same, as they are for a model that is joined
with itself by convention, the schema is accepted all the same.  The row that links two keys then holds the related one
only, since it is written over the parent's (`Registry.joinColumns_eq_iff`).
-/
namespace SqlMapper

/-! ## Join rows -/

/-- The columns of the join table that a new row is stamped in. -/
def JoinTable.stampColumns (join : JoinTable) : List String :=
  ["created_at", "updated_at"].filter join.pivotColumns.contains

theorem Attributes.get?_foldl_insert (v : Value) (column : String) (columns : List String) (a : Attributes) :
    (columns.foldl (fun row c => row.insert c v) a).get? column = if column ∈ columns then some v else a.get? column := by
  induction columns generalizing a with
  | nil => rfl
  | cons c columns ih =>
    rw [List.foldl_cons, ih, Attributes.get?_insert]
    by_cases hc : c = column
    · simp [hc]
    · simp [hc, Ne.symm hc]

namespace JoinTable

variable (join : JoinTable)

/-- What a join row has: the stamp, else the related key, else the parent's. -/
theorem get?_joinRow (key id : Value) (now : Timestamp) (column : String) :
    (RelationQuery.joinRow join key id now).get? column =
      if column ∈ join.stampColumns then some (.timestamp now)
      else if join.otherKey = column then some id
      else if join.foreignKey = column then some key
      else none := by
  rw [RelationQuery.joinRow, Attributes.get?_foldl_insert, Attributes.get?_insert, Attributes.get?_insert]
  rfl

/-- A join row has both keys, whatever they are, exactly where each has a column to itself. -/
theorem joinRow_has_both_iff :
    (∀ key id now, (RelationQuery.joinRow join key id now).get? join.foreignKey = some key ∧
        (RelationQuery.joinRow join key id now).get? join.otherKey = some id) ↔
      join.foreignKey ≠ join.otherKey ∧ join.foreignKey ∉ join.stampColumns ∧ join.otherKey ∉ join.stampColumns := by
  constructor
  · intro h
    -- keys that differ from each other and from the time show which of the three a column ends up with
    have hboth := h (.int 0) (.int 1) (.ofUnixSeconds 0)
    rw [get?_joinRow, get?_joinRow] at hboth
    obtain ⟨hforeign, hother⟩ := hboth
    have hf : join.foreignKey ∉ join.stampColumns := by
      intro hm
      rw [if_pos hm] at hforeign
      cases hforeign
    refine ⟨?_, hf, ?_⟩
    · intro he
      rw [if_neg hf, if_pos he.symm] at hforeign
      cases hforeign
    · intro hm
      rw [if_pos hm] at hother
      cases hother
  · rintro ⟨hne, hf, ho⟩ key id now
    rw [get?_joinRow, get?_joinRow, if_neg hf, if_neg hne.symm, if_pos rfl, if_neg ho, if_pos rfl]
    exact ⟨rfl, rfl⟩

variable {join}

/-- Where the keys share their column, the parent's is written over. -/
theorem eq_of_get?_joinRow_of_eq (he : join.foreignKey = join.otherKey) {key id v : Value} {now : Timestamp}
    {column : String} (hv : (RelationQuery.joinRow join key id now).get? column = some v) :
    v = id ∨ v = .timestamp now := by
  rw [get?_joinRow, he] at hv
  split at hv
  · exact .inr (Option.some.inj hv).symm
  · split at hv
    · exact .inl (Option.some.inj hv).symm
    · cases hv

end JoinTable

/-! ## Resolved columns -/

theorem conventionalForeignKey_eq_iff {model other : String} :
    conventionalForeignKey model = conventionalForeignKey other ↔ snakeCase model = snakeCase other := by
  rw [conventionalForeignKey, conventionalForeignKey, ← String.toList_inj, String.toList_append, String.toList_append,
    List.append_left_inj, String.toList_inj]

namespace Registry

variable {g : Registry} {s : Schema}

/-- **An accepted join table has one column for both keys exactly where the names say so.**  Each column is the one that
the declaration names, or follows from the owner's or the related model's name, so by convention they are the same
where these have the same snake case.  The rows of other join tables have both keys, unless one is stamped; a row of
this one has nothing of the parent. -/
theorem joinColumns_eq_iff (h : g.schema = .ok s) {d : ModelDeclaration} {decl : RelationDeclaration} {r : Relation}
    {join : JoinTable} (hr : g.Resolves s d decl r) (hlink : r.link = .manyToMany join) :
    (join.foreignKey = join.otherKey ↔
        decl.foreignKey.getD (conventionalForeignKey d.name) = decl.otherKey.getD (conventionalForeignKey decl.target)) ∧
      (decl.IsConventional → (join.foreignKey = join.otherKey ↔ snakeCase d.name = snakeCase decl.target)) ∧
      ((∀ key id now, (RelationQuery.joinRow join key id now).get? join.foreignKey = some key ∧
          (RelationQuery.joinRow join key id now).get? join.otherKey = some id) ↔
        join.foreignKey ≠ join.otherKey ∧ join.foreignKey ∉ join.stampColumns ∧ join.otherKey ∉ join.stampColumns) ∧
      (join.foreignKey = join.otherKey → ∀ key id now column v,
        (RelationQuery.joinRow join key id now).get? column = some v → v = id ∨ v = .timestamp now) := by
  have hcolumns : (join.foreignKey = join.otherKey ↔
      decl.foreignKey.getD (conventionalForeignKey d.name) =
        decl.otherKey.getD (conventionalForeignKey decl.target)) := by
    have hkind : decl.kind = .manyToMany := by
      rw [← kind_link g d.name decl, ← hr.link h, hlink]
      rfl
    rw [hr.link h, link_manyToMany hkind] at hlink
    cases hlink
    exact Iff.rfl
  refine ⟨hcolumns, ?_, join.joinRow_has_both_iff, fun he key id now column v hv =>
    JoinTable.eq_of_get?_joinRow_of_eq he hv⟩
  rintro ⟨-, hforeign, hother⟩
  rw [hcolumns, hforeign, hother]
  exact conventionalForeignKey_eq_iff

end Registry

/-! ## Friends of a user -/

namespace Blog

def userDeclaration : ModelDeclaration := ⟨"user", none, none, false, none, [.new .manyToMany "friends" "user"]⟩

def friends : Registry := ⟨[userDeclaration], none⟩

def friendship : JoinTable := ⟨"user_user", "user_id", "user_id", []⟩

def friend : Model := (Model.conventional 0 "user").declare ⟨"friends", 0, .manyToMany friendship, []⟩

def friendSchema : Schema := ⟨[friend], by decide, by decide +kernel⟩

def friendDb : Db Script := { Blog.db Script.exec with schema := friendSchema }

/-- The friends of the user with key 5. -/
def friendsOfUser : RelationQuery :=
  queryFor (.ofRow friend (user 5)) ⟨"friends", 0, .manyToMany friendship, []⟩ friend (.int 5)

theorem schema_friends : friends.schema = .ok friendSchema := by
  have hresolve : friends.resolve = .ok friendSchema.models := by decide +kernel
  rw [Registry.schema, hresolve]
  exact Schema.ofModels_eq_of_ok friendSchema.positional friendSchema.verified

end Blog

theorem joinColumns_eq_iff_labels :
    Blog.articles.schema = .ok Blog.articleSchema ∧
      Blog.articles.Resolves Blog.articleSchema Blog.postDeclaration (.new .manyToMany "labels" "Label")
        ⟨"labels", 1, .manyToMany Blog.articleLabels, []⟩ ∧
      snakeCase "BlogPost" ≠ snakeCase "Label" ∧ Blog.articleLabels.foreignKey ≠ Blog.articleLabels.otherKey := by
  have hr : Blog.articles.Resolves Blog.articleSchema Blog.postDeclaration (.new .manyToMany "labels" "Label")
      ⟨"labels", 1, .manyToMany Blog.articleLabels, []⟩ :=
    ⟨0, Blog.article, rfl, rfl, by decide, rfl⟩
  have hnames : snakeCase "BlogPost" ≠ snakeCase "Label" := by decide +kernel
  obtain ⟨-, hconventional, -⟩ := Registry.joinColumns_eq_iff Blog.schema_articles hr rfl
  exact ⟨Blog.schema_articles, hr, hnames, fun he => hnames ((hconventional ⟨rfl, rfl, rfl⟩).1 he)⟩

/-- **A user who is joined with users by convention loses the own key.**  The schema is accepted, the row of a new friend
has the friend's key only, and a row to be deleted would have to have both keys in its one column. -/
theorem friendship_has_one_column :
    Blog.friends.schema = .ok Blog.friendSchema ∧
      Blog.friends.Resolves Blog.friendSchema Blog.userDeclaration (.new .manyToMany "friends" "user")
        Blog.friendsOfUser.relation ∧
      (Entity.ofRow Blog.friend (Blog.user 5)).relation Blog.friendDb "friends" = .ok Blog.friendsOfUser ∧
      Blog.friendsOfUser.relation.link = .manyToMany Blog.friendship ∧
      Blog.friendship.foreignKey = Blog.friendship.otherKey ∧
      (∃ p, p.sql = "INSERT INTO \"user_user\" (\"user_id\") VALUES (?1)" ∧ p.bindings = [.int 7] ∧
        ((Blog.friendsOfUser.attach Blog.friendDb (.int 7) []).run.run Blog.quiet).2.events = [.sent (.exec p false)]) ∧
      ∃ p, p.sql = "DELETE FROM \"user_user\" WHERE \"user_id\" = ?1 AND \"user_id\" IN (?2)" ∧
        p.bindings = [.int 5, .int 7] ∧
        ((Blog.friendsOfUser.detach Blog.friendDb [.int 7]).run.run Blog.quiet).2.events = [.sent (.exec p false)] := by
  refine ⟨Blog.schema_friends, ⟨0, Blog.friend, rfl, rfl, by decide, rfl⟩, rfl, rfl, rfl, ⟨⟨_, _, _⟩, ?_, ?_, rfl⟩,
    ⟨_, _, _⟩, ?_, ?_, rfl⟩
  · decide +kernel
  · decide +kernel
  · decide +kernel
  · decide +kernel

end SqlMapper
