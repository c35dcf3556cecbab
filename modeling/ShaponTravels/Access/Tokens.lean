import ShaponTravels.Access.Clients

/-!
# Tokens — a machine token does not outlive what it was issued on

Every token in the table belongs to an admitted client: what ends the admission of a client deletes
its tokens in the same transaction.  A credential is never activated again, so the join of
`authenticate` keeps out the tokens of a credential that was replaced.
-/

namespace ShaponTravels.Access

open Library

variable {desk : Desk}

/-! ## What a transaction leaves of the tokens -/

/-- Every token of a client outside `ids` has an admitted client. -/
def Db.AdmittedBut (db : Db) (ids : List Uuid) : Prop :=
  ∀ t ∈ db.tokens, t.clientId ∈ ids ∨ ∃ c ∈ db.clients, c.id = t.clientId ∧ c.admitted

/-- The rows of one credential stay, and an inactive one stays inactive. -/
def Ages (ks ks' : List ClientCredential) : Prop :=
  ∀ k ∈ ks, ∃ k' ∈ ks', k'.id = k.id ∧ k'.clientId = k.clientId ∧ (k'.active → k.active)

theorem Ages.refl (ks : List ClientCredential) : Ages ks ks :=
  fun k hk => ⟨k, hk, rfl, rfl, id⟩

theorem Ages.trans {ks ks' ks'' : List ClientCredential} (h : Ages ks ks') (h' : Ages ks' ks'') :
    Ages ks ks'' := by
  intro k hk
  obtain ⟨k', hk', hid, hclient, hactive⟩ := h k hk
  obtain ⟨k'', hk'', hid', hclient', hactive'⟩ := h' k' hk'
  exact ⟨k'', hk'', hid'.trans hid, hclient'.trans hclient, fun ha => hactive (hactive' ha)⟩

/-- No two active credentials belong to one client. -/
def OneActive (ks : List ClientCredential) : Prop :=
  ks.Pairwise fun k k' => ¬ (k.active ∧ k'.active ∧ k.clientId = k'.clientId)

/-- What holds of the tables between two statements; between two transactions no client is left
out. -/
structure Db.SoundBut (db : Db) (ids : List Uuid) : Prop where
  clients : KeyUnique ApiClient.id db.clients
  credentials : KeyUnique ClientCredential.id db.credentials
  hashes : KeyUnique MachineToken.tokenHash db.tokens
  oneActive : OneActive db.credentials
  admitted : db.AdmittedBut ids

/-- What a statement that issues no token does. -/
structure Db.Next (db db' : Db) (ids : List Uuid) : Prop where
  sound : db'.SoundBut ids
  ages : Ages db.credentials db'.credentials
  tokens : db'.tokens.Sublist db.tokens

theorem Db.Next.trans {db db' db'' : Db} {ids ids' : List Uuid} (h : db.Next db' ids)
    (h' : db'.Next db'' ids') : db.Next db'' ids' :=
  ⟨h'.sound, h.ages.trans h'.ages, h'.tokens.trans h.tokens⟩

theorem Db.Next.refl {db : Db} {ids : List Uuid} (h : db.SoundBut ids) : db.Next db ids :=
  ⟨h, .refl _, List.Sublist.refl _⟩

/-! ### Rows of clients -/

theorem enforce_ok {old new row : ApiClient} (h : enforceManagedClientAccess old new = .ok row) :
    row.id = new.id ∧ row.active = new.active ∧ row.externalUserId = new.externalUserId := by
  simp only [enforceManagedClientAccess, bind_eq_ok, ensure_eq_ok, bigint_eq_ok, pure_eq_ok] at h
  obtain ⟨-, -, version, -, rfl⟩ := h
  exact ⟨rfl, rfl, rfl⟩

theorem remainingTokens_sublist (db : Db) (row : ApiClient) :
    (db.remainingTokens row).Sublist db.tokens := by
  unfold Db.remainingTokens
  split
  · exact List.filter_sublist
  · exact List.Sublist.refl _

/-- A row that keeps a token is admitted, when it is active or managed. -/
theorem admitted_of_remaining {db : Db} {row : ApiClient} {t : MachineToken}
    (h : t ∈ db.remainingTokens row) (ht : t.clientId = row.id)
    (hrow : row.active ∨ row.externalUserId.isSome) : row.admitted := by
  unfold Db.remainingTokens at h
  split at h
  · have hne := (List.mem_filter.mp h).2
    simp [ht] at hne
  · rename_i hcond
    cases hext : row.externalUserId with
    | none =>
      have hactive : row.active := by simpa [hext] using hrow
      simp [ApiClient.admitted, hactive, hext]
    | some u =>
      simp only [hext, Option.isSome_some, true_and, not_not] at hcond
      simp [ApiClient.admitted, hcond.1, hcond.2.1, hcond.2.2]

theorem modify_row {db : Db} {old row : ApiClient} (hid : row.id = old.id) :
    modify ApiClient.id old.id (fun _ => row) db.clients =
      modify ApiClient.id old.id (fun c => { row with id := c.id }) db.clients := by
  apply modify_congr
  intro c _ hc
  rw [hc, ← hid]

theorem updateRow_ok {db db' : Db} {old new : ApiClient} (hid : new.id = old.id)
    (h : db.updateRow old new = .ok db') : ∃ row, row.id = old.id ∧ row.active = new.active ∧
      row.externalUserId = new.externalUserId ∧ db'.clients = modify ApiClient.id old.id (fun c => { row with id := c.id }) db.clients ∧
      db'.tokens = db.remainingTokens row ∧ db'.credentials = db.credentials ∧
      db'.staffClients = db.staffClients := by
  simp only [Db.updateRow, bind_eq_ok, pure_eq_ok] at h
  obtain ⟨row, hrow, -, -, rfl⟩ := h
  obtain ⟨hnew, hactive, huser⟩ := enforce_ok hrow
  have hrowId : row.id = old.id := hnew.trans hid
  exact ⟨row, hrowId, hactive, huser, modify_row hrowId, rfl, rfl, rfl⟩

/-- An update of a row keeps the tokens of the other clients admitted, and its own unless it
deactivates a client that is not managed. -/
theorem updateRow_admitted {db db' : Db} {old new : ApiClient} {ids ids' : List Uuid}
    (hs : db.SoundBut ids) (hold : old ∈ db.clients) (h : db.updateRow old new = .ok db')
    (hid : new.id = old.id) (hids : ∀ id ∈ ids, id ∈ ids')
    (hnew : (old.active → new.active) ∨ new.externalUserId.isSome ∨ old.id ∈ ids') :
    db'.AdmittedBut ids' := by
  obtain ⟨row, hrowId, hactive, huser, hclients, htokens, -⟩ := updateRow_ok hid h
  intro t ht
  rw [htokens] at ht
  have hbefore := hs.admitted t ((remainingTokens_sublist db row).subset ht)
  by_cases hown : t.clientId = old.id
  · -- the row itself: it keeps a token only when it is admitted
    have hrow : (row.active ∨ row.externalUserId.isSome) → ∃ c ∈ db'.clients, c.id = t.clientId ∧
        c.admitted := by
      intro hcond
      have hadm := admitted_of_remaining ht (hown.trans hrowId.symm) hcond
      have hmem : ({ row with id := old.id } : ApiClient) ∈
          modify ApiClient.id old.id (fun c => { row with id := c.id }) db.clients :=
        mem_modify_of_mem hold rfl
      refine ⟨{ row with id := old.id }, hclients ▸ hmem, hown.symm, ?_⟩
      rw [← hrowId]
      exact hadm
    rcases hbefore with hmem | ⟨c, hc, hct, hadm⟩
    · exact .inl (hids _ hmem)
    · rcases hnew with hkept | hmanaged | hmem
      · rw [hs.clients.eq_of_key hc hold (hct.trans hown)] at hadm
        have hcactive : old.active := (Bool.and_eq_true_iff.mp hadm).1
        exact .inr (hrow (.inl (hactive ▸ hkept hcactive)))
      · exact .inr (hrow (.inr (huser ▸ hmanaged)))
      · exact .inl (hown ▸ hmem)
  · rcases hbefore with hmem | ⟨c, hc, hct, hadm⟩
    · exact .inl (hids _ hmem)
    · have hne : c.id ≠ old.id := fun he => hown (hct.symm.trans he)
      exact .inr ⟨c, hclients ▸ mem_modify_of_ne hc hne, hct, hadm⟩

theorem updateRow_next {db db' : Db} {old new : ApiClient} {ids ids' : List Uuid}
    (hs : db.SoundBut ids) (hold : old ∈ db.clients) (h : db.updateRow old new = .ok db')
    (hid : new.id = old.id) (hids : ∀ id ∈ ids, id ∈ ids')
    (hnew : (old.active → new.active) ∨ new.externalUserId.isSome ∨ old.id ∈ ids') :
    db.Next db' ids' := by
  have hadmitted := updateRow_admitted hs hold h hid hids hnew
  obtain ⟨row, -, -, -, hclients, htokens, hcredentials, -⟩ := updateRow_ok hid h
  have hsub : db'.tokens.Sublist db.tokens := htokens ▸ remainingTokens_sublist db row
  refine ⟨⟨?_, hcredentials ▸ hs.credentials, hs.hashes.sublist (hsub.map _),
    hcredentials ▸ hs.oneActive, hadmitted⟩, hcredentials ▸ .refl _, hsub⟩
  rw [hclients]
  exact hs.clients.modify (fun _ => rfl)

theorem insertClient_next {db db' : Db} {c : ApiClient} {ids : List Uuid} (hs : db.SoundBut ids)
    (h : db.insertClient c = .ok db') : db.Next db' ids := by
  simp only [Db.insertClient, bind_eq_ok, ensure_eq_ok, exists_const, pure_eq_ok] at h
  obtain ⟨hnew, -, -, -, rfl⟩ := h
  refine ⟨⟨keyUnique_concat.mpr ⟨hs.clients, hnew⟩, hs.credentials, hs.hashes, hs.oneActive, ?_⟩,
    .refl _, List.Sublist.refl _⟩
  intro t ht
  rcases hs.admitted t ht with hmem | ⟨c', hc', hct, hadm⟩
  · exact .inl hmem
  · exact .inr ⟨c', List.mem_append_left _ hc', hct, hadm⟩

/-! ### Credentials -/

theorem deactivate_ages (db : Db) (ids : List Uuid) :
    Ages db.credentials (db.deactivate ids).credentials := by
  intro k hk
  refine ⟨_, List.mem_map_of_mem hk, ?_⟩
  split
  · exact ⟨rfl, rfl, fun h => absurd h (by simp)⟩
  · exact ⟨rfl, rfl, id⟩

theorem deactivate_next {db : Db} {ids : List Uuid} (hs : db.SoundBut ids) (clients : List Uuid) :
    db.Next (db.deactivate clients) ids := by
  refine ⟨⟨hs.clients, ?_, hs.hashes, ?_, hs.admitted⟩, deactivate_ages db clients,
    List.Sublist.refl _⟩
  · have hkeys : (db.deactivate clients).credentials.map ClientCredential.id =
        db.credentials.map ClientCredential.id := by
      simp only [Db.deactivate, List.map_map]
      apply List.map_congr_left
      intro k _
      simp only [Function.comp]
      split
      · rfl
      · rfl
    rw [KeyUnique, hkeys]
    exact hs.credentials
  · apply List.pairwise_map.mpr
    refine hs.oneActive.imp ?_
    intro k k' hnot hboth
    apply hnot
    revert hboth
    split
    · simp
    · split
      · simp
      · exact id

theorem insertCredential_next {db db' : Db} {id client : Uuid} {hash : String} {ids : List Uuid}
    (hs : db.SoundBut ids) (h : db.insertCredential id client hash = .ok db') :
    db.Next db' ids := by
  simp only [Db.insertCredential, bind_eq_ok, ensure_eq_ok, exists_const, pure_eq_ok] at h
  obtain ⟨hnew, hsingle, -, rfl⟩ := h
  refine ⟨⟨hs.clients, keyUnique_concat.mpr ⟨hs.credentials, hnew⟩, hs.hashes, ?_, hs.admitted⟩,
    ?_, List.Sublist.refl _⟩
  · apply List.pairwise_append.mpr
    refine ⟨hs.oneActive, List.pairwise_singleton _ _, ?_⟩
    intro k hk k' hk' hboth
    rw [List.mem_singleton.mp hk'] at hboth
    exact hsingle k hk ⟨hboth.2.2, hboth.1⟩
  · exact fun k hk => ⟨k, List.mem_append_left _ hk, rfl, rfl, fun ha => ha⟩

/-! ### Deletions -/

theorem deleteTokens_next {db : Db} {ids : List Uuid} (hs : db.SoundBut ids) :
    db.Next (db.deleteTokens ids) [] := by
  have hsub : (db.deleteTokens ids).tokens.Sublist db.tokens := List.filter_sublist
  refine ⟨⟨hs.clients, hs.credentials, hs.hashes.sublist (hsub.map _), hs.oneActive, ?_⟩, .refl _,
    hsub⟩
  intro t ht
  have hout := (List.mem_filter.mp ht).2
  rcases hs.admitted t (List.mem_filter.mp ht).1 with hmem | hrow
  · simp [hmem] at hout
  · exact .inr hrow

/-! ## What each command does -/

theorem client_mem {db : Db} {id : Uuid} {c : ApiClient} (h : db.client id = some c) :
    c ∈ db.clients ∧ c.id = id :=
  ⟨lookup_mem h, lookup_key h⟩

theorem createClient_next {db db' : Db} {input : ClientInput} {id credential : Uuid} {hash : String}
    (hs : db.SoundBut []) (h : createClient db input id credential hash = .ok db') :
    db.Next db' [] := by
  simp only [createClient, bind_eq_ok, mapError_eq_ok] at h
  obtain ⟨-, -, db₁, hclient, hcredential⟩ := h
  have hnext := insertClient_next hs hclient
  exact hnext.trans (insertCredential_next hnext.sound hcredential)

theorem updateClient_next {db db' : Db} {id : Uuid} {input : ClientInput} (hs : db.SoundBut [])
    (h : updateClient db id input = .ok db') : db.Next db' [] := by
  simp only [updateClient, bind_eq_ok, fetch_eq_ok, mapError_eq_ok, pure_eq_ok] at h
  obtain ⟨-, -, old, hold, db₁, hrow, rfl⟩ := h
  obtain ⟨hmem, rfl⟩ := client_mem hold
  split
  · rename_i hactive
    exact updateRow_next hs hmem hrow rfl (fun _ h => h) (.inl fun _ => hactive)
  · have hnext : db.Next db₁ [old.id] :=
      updateRow_next hs hmem hrow rfl (fun _ h => absurd h List.not_mem_nil)
        (.inr (.inr List.mem_cons_self))
    exact hnext.trans (deleteTokens_next hnext.sound)

theorem resetSecret_next {db db' : Db} {id credential : Uuid} {hash : String} (hs : db.SoundBut [])
    (h : resetSecret db id credential hash = .ok db') : db.Next db' [] := by
  simp only [resetSecret, bind_eq_ok, mapError_eq_ok] at h
  obtain ⟨-, -, hinsert⟩ := h
  have hnext := deactivate_next hs [id]
  exact hnext.trans (insertCredential_next hnext.sound hinsert)

theorem revokeSecret_next {db db' : Db} {id : Uuid} (hs : db.SoundBut [])
    (h : revokeSecret db id = .ok db') : db.Next db' [] := by
  simp only [revokeSecret, bind_eq_ok, pure_eq_ok] at h
  obtain ⟨-, -, rfl⟩ := h
  exact deactivate_next hs [id]

theorem create_next {db db' : Db} {admin : Search.Controls.Admin} {user name : String} {id : Uuid}
    (hs : db.SoundBut []) (h : create db admin user name id = .ok db') : db.Next db' [] := by
  simp only [create, bind_eq_ok, mapError_eq_ok] at h
  obtain ⟨-, -, -, -, -, -, hinsert⟩ := h
  exact insertClient_next hs hinsert

theorem setTier_next {db db' : Db} {admin : Search.Controls.Admin} {id : Uuid} {tier : Pricing.Tier}
    (hs : db.SoundBut []) (h : setTier db admin id tier = .ok db') : db.Next db' [] := by
  simp only [setTier, bind_eq_ok, fetch_eq_ok, mapError_eq_ok, Option.filter_eq_some_iff] at h
  obtain ⟨-, -, old, ⟨hold, -⟩, hrow⟩ := h
  exact updateRow_next hs (client_mem hold).1 hrow rfl (fun _ h => h) (.inl fun hactive => hactive)

theorem update_next {db db' : Db} {admin : Search.Controls.Admin} {id : Uuid} {input : UpdateInput}
    (hs : db.SoundBut []) (h : update db admin id input = .ok db') : db.Next db' [] := by
  simp only [update, bind_eq_ok, fetch_eq_ok, Option.filter_eq_some_iff] at h
  obtain ⟨-, -, old, ⟨hold, hmanaged⟩, -, -, hrest⟩ := h
  have hrow : (db.updateRow old { old with
      tier := input.tier
      active := input.active
      apiManagementEnabled := input.apiManagementEnabled
      permissions := input.permissions
      rateLimitPerMinute := input.rateLimitPerMinute }).mapError ApiError.ofDb = .ok db' := by
    split at hrest
    · obtain ⟨-, -, hrow⟩ := bind_eq_ok.mp hrest
      exact hrow
    · exact hrest
  exact updateRow_next hs (client_mem hold).1 (mapError_eq_ok.mp hrow) rfl (fun _ h => h)
    (.inr (.inl hmanaged))

/-- The first statement of `revoke_clients` leaves no client of `ids` but those it has still to
revoke, and those whose tokens its third statement deletes. -/
theorem revokeRows_next {db db' : Db} {ids done : List Uuid} (hs : db.SoundBut done)
    (h : ids.foldlM revokeRow db = .ok db') : db.Next db' (done ++ ids) := by
  induction ids generalizing db done with
  | nil =>
    cases h
    rw [List.append_nil]
    exact .refl hs
  | cons id ids ih =>
    rw [List.foldlM_cons, bind_eq_ok] at h
    obtain ⟨db₁, hrow, hrest⟩ := h
    have hnext : db.Next db₁ (done ++ [id]) := by
      unfold revokeRow at hrow
      split at hrow
      · cases hrow
        exact .refl ⟨hs.clients, hs.credentials, hs.hashes, hs.oneActive,
          fun t ht => (hs.admitted t ht).imp_left (List.mem_append_left _)⟩
      · rename_i old hold
        obtain ⟨hmem, rfl⟩ := client_mem hold
        exact updateRow_next hs hmem hrow rfl (fun _ h => List.mem_append_left _ h)
          (.inr (.inr (List.mem_append_right _ List.mem_cons_self)))
    have hall := hnext.trans (ih hnext.sound hrest)
    rw [List.append_assoc] at hall
    exact hall

theorem revokeClients_next {db db' : Db} {ids : List Uuid} (hs : db.SoundBut [])
    (h : revokeClients db ids = .ok db') : db.Next db' [] := by
  simp only [revokeClients, bind_eq_ok, pure_eq_ok] at h
  obtain ⟨db₁, hrows, rfl⟩ := h
  have hnext : db.Next db₁ ids := revokeRows_next hs hrows
  have hdeactivated := deactivate_next hnext.sound ids
  have hdeleted := deleteTokens_next hdeactivated.sound
  refine (hnext.trans hdeactivated).trans (hdeleted.trans ⟨?_, .refl _, List.Sublist.refl _⟩)
  exact ⟨hdeleted.sound.clients, hdeleted.sound.credentials, hdeleted.sound.hashes,
    hdeleted.sound.oneActive, hdeleted.sound.admitted⟩

theorem sessionClient_next {db db' : Db} {subject : String} {staffPricing : Bool} {fresh id : Uuid}
    (hs : db.SoundBut []) (h : sessionClient db subject staffPricing fresh = .ok (id, db')) :
    db.Next db' [] := by
  unfold sessionClient at h
  split at h
  · simp only [bind_eq_ok, mapError_eq_ok, pure_eq_ok, Prod.mk.injEq] at h
    obtain ⟨⟨id', db₁⟩, hstaff, c, -, -, rfl⟩ := h
    unfold staffClient at hstaff
    split at hstaff
    · cases hstaff
      exact .refl hs
    · simp only [bind_eq_ok, pure_eq_ok, Prod.mk.injEq] at hstaff
      obtain ⟨db₂, hinsert, -, -, -, rfl⟩ := hstaff
      have hnext := insertClient_next hs hinsert
      exact hnext.trans ⟨⟨hnext.sound.clients, hnext.sound.credentials, hnext.sound.hashes,
        hnext.sound.oneActive, hnext.sound.admitted⟩, .refl _, List.Sublist.refl _⟩
  · simp only [bind_eq_ok, pure_eq_ok, Prod.mk.injEq] at h
    obtain ⟨c, -, -, rfl⟩ := h
    exact .refl hs

theorem session_next {db db' : Db} {now : Int} {admin : Search.Controls.Admin} {subject : String}
    {staffPricing : Bool} {fresh : Uuid} {hash : Digest} (hs : db.SoundBut [])
    (h : session db now admin subject staffPricing fresh hash = .ok db') : db.Next db' [] := by
  simp only [session, bind_eq_ok, pure_eq_ok] at h
  obtain ⟨-, -, -, -, ⟨id, db₁⟩, hclient, -, -, rfl⟩ := h
  have hnext := sessionClient_next hs hclient
  exact hnext.trans ⟨⟨hnext.sound.clients, hnext.sound.credentials, hnext.sound.hashes,
    hnext.sound.oneActive, hnext.sound.admitted⟩, .refl _, List.Sublist.refl _⟩

/-! ## Tokens -/

/-- A login is for an existing credential of its client. -/
def Login.Backed (ks : List ClientCredential) (l : Login) : Prop :=
  ∃ k ∈ ks, k.id = l.credentialId ∧ k.clientId = l.clientId

theorem Login.Backed.ages {ks ks' : List ClientCredential} {l : Login} (h : l.Backed ks)
    (hages : Ages ks ks') : l.Backed ks' := by
  obtain ⟨k, hk, hid, hclient⟩ := h
  obtain ⟨k', hk', hid', hclient', -⟩ := hages k hk
  exact ⟨k', hk', hid'.trans hid, hclient'.trans hclient⟩

theorem login_backed {db : Db} {client : Uuid} {secret : String} {l : Login}
    (h : login desk db client secret = .ok l) : l.Backed db.credentials := by
  simp only [login, bind_eq_ok, fetch_eq_ok, pure_eq_ok, Option.filter_eq_some_iff] at h
  obtain ⟨-, -, c, ⟨hc, -⟩, k, hk, -, -, rfl⟩ := h
  have hprop := List.find?_some hk
  simp only [decide_eq_true_eq] at hprop
  exact ⟨k, List.mem_of_find?_eq_some hk, rfl, hprop.1.trans (client_mem hc).2⟩

/-- The client of the login is admitted and its credential is active. -/
structure Db.Usable (db : Db) (l : Login) : Prop where
  client : ∃ c, db.client l.clientId = some c ∧ c.admitted
  credential : ∃ k, lookup ClientCredential.id l.credentialId db.credentials = some k ∧
    k.clientId = l.clientId ∧ k.active

/-- What `token` stores, and what it has checked in the same transaction. -/
theorem token_ok {db db' : Db} {now : Int} {l : Login} {accessToken : String}
    (hs : db.SoundBut []) (hl : l.Backed db.credentials)
    (h : token desk db now l accessToken = .ok db') :
    db.Usable l ∧ (∀ t ∈ db.tokens, t.tokenHash ≠ desk.digest accessToken) ∧
      db' = { db with tokens := db.tokens ++
        [⟨desk.digest accessToken, l.clientId, l.credentialId, now, now + 1800000000⟩] } := by
  simp only [token, bind_eq_ok, fetch_eq_ok, ensure_eq_ok, exists_const, pure_eq_ok,
    Option.filter_eq_some_iff, Bool.and_eq_true] at h
  obtain ⟨k, ⟨hk, hactive⟩, c, ⟨hc, hadmitted, -⟩, hnew, rfl⟩ := h
  obtain ⟨k', hk', hid, hclient⟩ := hl
  have hsame : k = k' :=
    hs.credentials.eq_of_key (lookup_mem hk) hk' ((lookup_key hk).trans hid.symm)
  rw [hsame, hclient] at hc
  exact ⟨⟨⟨c, hc, hadmitted⟩, ⟨k, hk, hsame ▸ hclient, hactive⟩⟩, hnew, rfl⟩

/-- What holds of the system between two transactions. -/
structure System.Sound (s : System) : Prop where
  db : s.db.SoundBut []
  logins : ∀ l ∈ s.logins, l.Backed s.db.credentials

theorem token_sound {db db' : Db} {now : Int} {l : Login} {accessToken : String}
    (hs : db.SoundBut []) (hl : l.Backed db.credentials)
    (h : token desk db now l accessToken = .ok db') : db'.SoundBut [] := by
  obtain ⟨⟨⟨c, hc, hadmitted⟩, -⟩, hnew, rfl⟩ := token_ok hs hl h
  refine ⟨hs.clients, hs.credentials, keyUnique_concat.mpr ⟨hs.hashes, hnew⟩, hs.oneActive, ?_⟩
  intro t ht
  rcases List.mem_append.mp ht with ht | ht
  · exact hs.admitted t ht
  · rw [List.mem_singleton.mp ht]
    obtain ⟨hmem, hid⟩ := client_mem hc
    exact .inr ⟨c, hmem, hid, hadmitted⟩

/-- One step: only `token` adds a token, and no step activates a credential. -/
theorem step_cases {s s' : System} {e : Event} (hs : s.Sound) (h : s.step desk e = .ok s') :
    (∃ now l accessToken, e = .token now l accessToken ∧ l.Backed s.db.credentials ∧
      token desk s.db now l accessToken = .ok s'.db) ∨ s.db.Next s'.db [] := by
  simp only [System.step, bind_eq_ok, pure_eq_ok] at h
  obtain ⟨logins, hlogins, db', hdb, rfl⟩ := h
  cases e with
  | createClient => exact .inr (createClient_next hs.db hdb)
  | updateClient => exact .inr (updateClient_next hs.db hdb)
  | resetSecret => exact .inr (resetSecret_next hs.db hdb)
  | revokeSecret => exact .inr (revokeSecret_next hs.db hdb)
  | create => exact .inr (create_next hs.db hdb)
  | update => exact .inr (update_next hs.db hdb)
  | setTier => exact .inr (setTier_next hs.db hdb)
  | revokeClients => exact .inr (revokeClients_next hs.db (mapError_eq_ok.mp hdb))
  | session => exact .inr (session_next hs.db hdb)
  | login =>
    cases hdb
    exact .inr (.refl hs.db)
  | token now l accessToken =>
    simp only [System.requests, bind_eq_ok, ensure_eq_ok, exists_const] at hlogins
    exact .inl ⟨now, l, accessToken, rfl, hs.logins l hlogins.1, hdb⟩

theorem step_ages {s s' : System} {e : Event} (hs : s.Sound) (h : s.step desk e = .ok s') :
    Ages s.db.credentials s'.db.credentials := by
  rcases step_cases hs h with ⟨now, l, accessToken, -, hl, htoken⟩ | hnext
  · rw [(token_ok hs.db hl htoken).2.2]
    exact .refl _
  · exact hnext.ages

theorem step_sound {s s' : System} {e : Event} (hs : s.Sound) (h : s.step desk e = .ok s') :
    s'.Sound := by
  have hages := step_ages hs h
  constructor
  · rcases step_cases hs h with ⟨now, l, accessToken, -, hl, htoken⟩ | hnext
    · exact token_sound hs.db hl htoken
    · exact hnext.sound
  · intro l hl
    simp only [System.step, bind_eq_ok, pure_eq_ok] at h
    obtain ⟨logins, hlogins, db', hdb, rfl⟩ := h
    have hold : ∀ l ∈ s.logins, l.Backed db'.credentials := fun l hl => (hs.logins l hl).ages hages
    cases e with
    | login client secret =>
      simp only [System.requests, bind_eq_ok, pure_eq_ok] at hlogins
      obtain ⟨l', hl', rfl⟩ := hlogins
      rcases List.mem_append.mp hl with hl | hl
      · exact hold l hl
      · rw [List.mem_singleton.mp hl]
        exact (login_backed hl').ages hages
    | token now l' accessToken =>
      simp only [System.requests, bind_eq_ok, ensure_eq_ok, exists_const, pure_eq_ok] at hlogins
      obtain ⟨-, rfl⟩ := hlogins
      exact hold l (List.mem_of_mem_erase hl)
    | _ =>
      cases hlogins
      exact hold l hl

theorem start_sound (policy : TierPolicy) : (System.start policy).Sound := by
  refine ⟨⟨.nil, .nil, .nil, .nil, ?_⟩, ?_⟩
  · intro t ht
    cases ht
  · intro l hl
    cases hl

/-! ## Histories -/

variable {policy : TierPolicy} {t : List (Transition System Event)} {s : System}

theorem run_sound {s' : System} (h : (machine desk).Run s t s') (hs : s.Sound) : s'.Sound :=
  h.invariant (I := System.Sound) (fun _ _ _ hs hstep => step_sound hs hstep) hs

theorem run_ages {s' : System} (h : (machine desk).Run s t s') (hs : s.Sound) :
    Ages s.db.credentials s'.db.credentials :=
  h.relates (I := System.Sound) (R := fun s s' => Ages s.db.credentials s'.db.credentials)
    (fun _ => .refl _) (fun _ _ _ h h' => h.trans h') (fun _ _ _ hs hstep => step_sound hs hstep)
    (fun _ _ _ hs hstep => step_ages hs hstep) hs

/-- A row that was not there came with `token`, for a login its transaction found usable. -/
theorem issued_of_new {s' : System} {e : Event} {row : MachineToken} (hs : s.Sound)
    (h : s.step desk e = .ok s') (hbefore : row ∉ s.db.tokens) (hafter : row ∈ s'.db.tokens) :
    ∃ now l accessToken, e = .token now l accessToken ∧ s.db.Usable l ∧
      row = ⟨desk.digest accessToken, l.clientId, l.credentialId, now, now + 1800000000⟩ := by
  rcases step_cases hs h with ⟨now, l, accessToken, rfl, hl, htoken⟩ | hnext
  · obtain ⟨husable, -, hdb⟩ := token_ok hs.db hl htoken
    rw [hdb] at hafter
    rcases List.mem_append.mp hafter with hmem | hmem
    · exact absurd hmem hbefore
    · exact ⟨now, l, accessToken, rfl, husable, List.mem_singleton.mp hmem⟩
  · exact absurd (hnext.tokens.subset hafter) hbefore

/-- While its row is in the table and its credential is going to be active, a token is usable. -/
theorem usable_of_held {s' : System} {l : Login} {row : MachineToken} {k k' : ClientCredential}
    (hs : s.Sound) (hs' : s'.Sound) (hages : Ages s.db.credentials s'.db.credentials)
    (hrow : row ∈ s.db.tokens) (hclient : row.clientId = l.clientId)
    (hk : k ∈ s.db.credentials) (hkid : k.id = l.credentialId) (hkclient : k.clientId = l.clientId)
    (hk' : k' ∈ s'.db.credentials) (hk'id : k'.id = l.credentialId) (hactive : k'.active) :
    s.db.Usable l := by
  constructor
  · rcases hs.db.admitted row hrow with hmem | ⟨c, hc, hid, hadmitted⟩
    · cases hmem
    · exact ⟨c, hs.db.clients.lookup_iff.mpr ⟨hc, hid.trans hclient⟩, hadmitted⟩
  · obtain ⟨k'', hk'', hid, -, hback⟩ := hages k hk
    have hsame : k'' = k' :=
      hs'.db.credentials.eq_of_key hk'' hk' ((hid.trans hkid).trans hk'id.symm)
    exact ⟨k, hs.db.credentials.lookup_iff.mpr ⟨hk, hkid⟩, hkclient, hback (hsame ▸ hactive)⟩

/-- A token that authenticates was issued less than 1800 seconds before, for a client and a
credential that have been usable in every state since. -/
theorem authenticates_since {now : Int} {accessToken : String} {m : Machine}
    (h : (machine desk).Run (.start policy) t s)
    (hm : authenticate desk s.db now accessToken = .ok m) :
    ∃ t₁ r t₂ issued l text, t = t₁ ++ r :: t₂ ∧ r.label = .token issued l text ∧
      desk.digest text = desk.digest accessToken ∧ m.clientId = l.clientId ∧
      now < issued + 1800000000 ∧ r.before.db.Usable l ∧ ∀ q ∈ r :: t₂, q.after.db.Usable l := by
  simp only [authenticate, bind_eq_ok, fetch_eq_ok, pure_eq_ok, Option.filter_eq_some_iff,
    Bool.and_eq_true, decide_eq_true_eq] at hm
  obtain ⟨-, -, row, ⟨hrow, hlive⟩, c, ⟨hc, -⟩, k, ⟨hk, hkclient, hactive⟩, rfl⟩ := hm
  have hmem := lookup_mem hrow
  obtain ⟨t₁, r, t₂, rfl, hbefore, hstep, hafter, hnot, hin, hheld⟩ :=
    h.since (P := fun s => row ∈ s.db.tokens) List.not_mem_nil hmem
  have hsBefore := run_sound hbefore (start_sound policy)
  obtain ⟨issued, l, text, hlabel, husable, hissued⟩ := issued_of_new hsBefore hstep hnot hin
  have hsEnd := run_sound h (start_sound policy)
  obtain ⟨k₀, hk₀, hk₀client, -⟩ := husable.credential
  refine ⟨t₁, r, t₂, issued, l, text, rfl, hlabel, ?_, ?_, ?_, husable, ?_⟩
  · rw [← lookup_key hrow, hissued]
  · show c.id = l.clientId
    rw [(client_mem hc).2, hissued]
  · rw [hissued] at hlive
    exact hlive
  · -- the credential exists in every state since, and is active at the end
    have hstate : ∀ q ∈ r :: t₂, row ∈ q.after.db.tokens ∧ q.after.Sound ∧
        Ages r.before.db.credentials q.after.db.credentials ∧
        Ages q.after.db.credentials s.db.credentials := by
      have hsAfter := step_sound hsBefore hstep
      have hfirst := step_ages hsBefore hstep
      intro q hq
      rcases List.mem_cons.mp hq with rfl | hq
      · exact ⟨hin, hsAfter, hfirst, run_ages hafter hsAfter⟩
      · obtain ⟨t₃, t₄, -, hq₁, hq₂, hq₃⟩ := hafter.split hq
        have hsq := run_sound hq₁ hsAfter
        have hsq' := step_sound hsq hq₂
        exact ⟨hheld q hq, hsq', (hfirst.trans (run_ages hq₁ hsAfter)).trans (step_ages hsq hq₂),
          run_ages hq₃ hsq'⟩
    intro q hq
    obtain ⟨hqrow, hsq, hagesq, hagesEnd⟩ := hstate q hq
    obtain ⟨kq, hkq, hkqid, hkqclient, -⟩ := hagesq k₀ (lookup_mem hk₀)
    have hkid : k.id = l.credentialId := by rw [lookup_key hk, hissued]
    exact usable_of_held hsq hsEnd hagesEnd hqrow (by rw [hissued]) hkq
      (hkqid.trans (lookup_key hk₀)) (hkqclient.trans hk₀client) (lookup_mem hk) hkid hactive

/-- A client has at most one active credential. -/
theorem active_le_one (hs : s.Sound) (client : Uuid) :
    (s.db.credentials.filter fun k => k.clientId = client ∧ k.active).length ≤ 1 := by
  have hpair := hs.db.oneActive.filter fun k => decide (k.clientId = client ∧ k.active)
  have hactive : ∀ x ∈ s.db.credentials.filter fun k => k.clientId = client ∧ k.active,
      x.clientId = client ∧ x.active := by
    intro x hx
    simpa using (List.mem_filter.mp hx).2
  revert hpair hactive
  cases s.db.credentials.filter fun k => k.clientId = client ∧ k.active with
  | nil => intros; exact Nat.zero_le 1
  | cons k rest =>
    cases rest with
    | nil => intros; exact Nat.le_refl 1
    | cons k' rest =>
      intro hpair hactive
      exfalso
      have hk := hactive k List.mem_cons_self
      have hk' := hactive k' (List.mem_cons_of_mem _ List.mem_cons_self)
      exact (List.pairwise_cons.mp hpair).1 k' List.mem_cons_self
        ⟨hk.2, hk'.2, hk.1.trans hk'.1.symm⟩

/-- Machine tokens never outlive revocation: a token authenticates only before its expiry, and only
if, in every state since it was issued, its client was admitted and its credential active; no client
has two active credentials. -/
theorem tokens_never_outlive_revocation (h : (machine desk).Run (.start policy) t s) :
    (∀ now accessToken m, authenticate desk s.db now accessToken = .ok m →
      ∃ t₁ r t₂ issued l text, t = t₁ ++ r :: t₂ ∧ r.label = .token issued l text ∧
        desk.digest text = desk.digest accessToken ∧ m.clientId = l.clientId ∧
        now < issued + 1800000000 ∧ r.before.db.Usable l ∧
        ∀ q ∈ r :: t₂, q.after.db.Usable l) ∧
    ∀ client, (s.db.credentials.filter fun k => k.clientId = client ∧ k.active).length ≤ 1 :=
  ⟨fun _ _ _ hm => authenticates_since h hm,
    active_le_one (run_sound h (start_sound policy))⟩

/-- The code points of a text as its digest, and secrets stored as they are. -/
def sampleDesk : Desk where
  digest text := BitVec.ofNat 256 (text.toList.foldl (fun n c => n * 128 + c.toNat) 0)
  verify secret hash := secret = hash

def sampleToken : String := "stm_0123456789012345678901234567890123456789012"

def sampleInput : ClientInput := ⟨"agency", .b2b, none, ["search:read"], true, 60⟩

/-- A client is disabled and enabled again, and only then given the token it authenticates with. -/
def sampleEvents : List Event :=
  [.createClient sampleInput 1 2 "secret",
    .login 1 "secret",
    .login 1 "secret",
    .token 0 ⟨1, 2⟩ sampleToken,
    .updateClient 1 { sampleInput with active := false },
    .updateClient 1 sampleInput,
    .token 50 ⟨1, 2⟩ sampleToken]

set_option maxRecDepth 10000 in
theorem tokens_reissued : ∃ t s m, (machine sampleDesk).Run (.start ⟨50, 60, 70⟩) t s ∧
    authenticate sampleDesk s.db 60 sampleToken = .ok m ∧ m.clientId = 1 ∧
    ∃ t₁ r t₂ issued l text, t = t₁ ++ r :: t₂ ∧ r.label = .token issued l text ∧
      sampleDesk.digest text = sampleDesk.digest sampleToken ∧ m.clientId = l.clientId ∧
      (60 : Int) < issued + 1800000000 ∧ r.before.db.Usable l ∧
      ∀ q ∈ r :: t₂, q.after.db.Usable l := by
  have hrun : (sampleEvents.foldlM (System.step sampleDesk) (.start ⟨50, 60, 70⟩) >>= fun s =>
      (authenticate sampleDesk s.db 60 sampleToken).map Machine.clientId) = .ok 1 := by
    decide +kernel
  obtain ⟨s, hs, hauthenticated⟩ := bind_eq_ok.mp hrun
  obtain ⟨m, hm, hclient⟩ := map_eq_ok.mp hauthenticated
  obtain ⟨t, ht⟩ := Machine.Run.foldlM (M := machine sampleDesk) (fun _ _ _ h => h) (.nil _) hs
  exact ⟨t, s, m, ht, hm, hclient, (tokens_never_outlive_revocation ht).1 60 sampleToken m hm⟩

end ShaponTravels.Access
