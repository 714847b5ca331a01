/-
Module: Waspp.Proofs.PageMarkup
Layer: Proofs
Purpose: What the uri of a request does to the markup of a page.  `set_jsonp` writes the uri into a quoted
  attribute as it is.  A uri without the quote is the value of that attribute, as far as it holds no
  character reference, and the tags of the page do not depend on it; at the first quote the attribute ends.
Imports: Waspp.Foundation.Html, Waspp.Foundation.TwoRuns, Waspp.Model.Documents, Waspp.Model.RouteDirForum,
  Waspp.Proofs.DocRoot, Waspp.Proofs.RequestGrammar, Waspp.Proofs.ServedFiles
Trusted boundary: none (fully proved)
Main exports: jsonpText, Contained, contained_iff, SameMarkup, respects_html, closedDocuments_of_ships,
  MarkupContained, markup_contained_iff
Open obligations: none
-/
import Waspp.Foundation.Html
import Waspp.Foundation.TwoRuns
import Waspp.Model.Documents
import Waspp.Model.RouteDirForum
import Waspp.Proofs.DocRoot
import Waspp.Proofs.RequestGrammar
import Waspp.Proofs.ServedFiles

namespace Waspp

open CString Interaction Html

/-! ### The text of `set_jsonp`

The uri stands in an attribute between single quotes.  The reader of markup is run over that text as it is
written, with any bytes for the uri. -/

/-- What `set_jsonp` appends to the page. -/
def jsonpText (uri : Bytes) : Bytes :=
  bytes "\n<script src='/_.js'></script>\n<script src='/_" ++ uri ++ bytes "'></script>\n"

/-- The response that `set_jsonp` leaves. -/
theorem append_jsonpText (res : Response) (uri : Bytes) :
    ((res.append (bytes "\n<script src='/_.js'></script>\n<script src='/_")).append uri).append
    (bytes "'></script>\n") =
      res.append (jsonpText uri) := by
  simp [Response.append, jsonpText]

/-- The script elements that are begun. -/
def scripts (tags : List Tag) : List Tag := tags.filter fun tag => !tag.isEnd && tag.name == bytes "script"

/-- Read as HTML, the text has two script elements, and the source of the second is `/_` and the
    uri.  `names` are the names of HTML's character references. -/
def Contained (names : List Bytes) (uri : Bytes) : Prop :=
  ∃ first second, scripts (reader.outputs .data (jsonpText uri)) = [first, second] ∧
    second.attributeText (bytes "src") = some (bytes "/_" ++ uri) ∧
    ¬ HoldsReference names (bytes "/_" ++ uri)

/-- A uri that stays in its attribute. -/
def StaysInside (names : List Bytes) (uri : Bytes) : Prop := '\''.toUInt8 ∉ uri ∧ ¬ HoldsReference names uri

/-- A script tag with a source. -/
def scriptTag (src : Bytes) : Tag := ⟨false, bytes "script", [(bytes "src", src)]⟩

def scriptEnd : Tag := ⟨true, bytes "script", []⟩

/-- Up to the uri, the reader meets one script and comes into the value of the second one's source. -/
theorem run_jsonp_front :
    reader.run .data (bytes "\n<script src='/_.js'></script>\n<script src='/_") =
      (.quoted '\''.toUInt8 (scriptTag (bytes "/_")), [scriptTag (bytes "/_.js"), scriptEnd]) := by
  decide +kernel

/-- Behind the uri, that script is closed. -/
theorem run_jsonp_back (src : Bytes) :
    reader.run (.quoted '\''.toUInt8 (scriptTag src)) (bytes "'></script>\n") = (.data,
      [scriptTag src, scriptEnd]) := by
  have literal : bytes "'></script>\n" = [39, 62, 60, 47, 115, 99, 114, 105, 112, 116, 62, 10] := by decide
  rw [literal]
  rfl

/-- The text of a uri without a quote. -/
theorem run_jsonpText {uri : Bytes} (plain : '\''.toUInt8 ∉ uri) :
    reader.run .data (jsonpText uri) =
      (.data, [scriptTag (bytes "/_.js"), scriptEnd, scriptTag (bytes "/_" ++ uri), scriptEnd]) := by
  have inside := run_quoted plain false (bytes "script") (bytes "src") (bytes "/_") []
  have front := run_jsonp_front
  have back := run_jsonp_back (bytes "/_" ++ uri)
  rw [jsonpText, List.append_assoc, Transducer.run_append, Transducer.final_append,
    Transducer.outputs_append]
  simp only [Transducer.final, Transducer.outputs, front]
  simp only [scriptTag] at inside back ⊢
  simp only [inside, back]
  rfl

/-- At the first quote the value ends: whatever follows, the second script has a shorter source. -/
theorem outputs_jsonpText_quote {front : Bytes} (plain : '\''.toUInt8 ∉ front) (back : Bytes) :
    ∃ tags, reader.outputs .data (jsonpText (front ++ '\''.toUInt8 :: back)) =
        scriptTag (bytes "/_.js") :: scriptEnd :: tags ∧
      (tags = [] ∨ ∃ newer later, tags = ⟨false, bytes "script",
        (bytes "src", bytes "/_" ++ front) :: newer⟩ :: later) := by
  have inside := run_quoted plain false (bytes "script") (bytes "src") (bytes "/_") []
  have quote : reader.step (.quoted '\''.toUInt8 (scriptTag (bytes "/_" ++ front))) '\''.toUInt8 =
      (.inTag (scriptTag (bytes "/_" ++ front)), []) := rfl
  have shape : jsonpText (front ++ '\''.toUInt8 :: back) =
      bytes "\n<script src='/_.js'></script>\n<script src='/_" ++
        (front ++ '\''.toUInt8 :: (back ++ bytes "'></script>\n")) := by
    simp [jsonpText]
  have held : Holds (bytes "script") (bytes "src",
      bytes "/_" ++ front) (.inTag (scriptTag (bytes "/_" ++ front))) :=
    .inTag []
  refine ⟨_, ?_, outputs_of_holds held (back ++ bytes "'></script>\n")⟩
  rw [shape, Transducer.outputs_append, Transducer.outputs_append, Transducer.outputs_cons]
  simp only [Transducer.final, Transducer.outputs, run_jsonp_front]
  simp only [scriptTag] at inside quote ⊢
  simp only [inside, quote]
  rfl

/-- The uri stays in its attribute exactly when it has no quote and holds no character reference. -/
theorem contained_iff (names : List Bytes) (uri : Bytes) : Contained names uri ↔ StaysInside names uri := by
  have reference : HoldsReference names (bytes "/_" ++ uri) ↔ HoldsReference names uri :=
    holdsReference_append (by decide) uri
  by_cases quote : '\''.toUInt8 ∈ uri
  · refine iff_of_false ?_ fun stays => stays.1 quote
    obtain ⟨front, back, rfl, plain⟩ := List.eq_append_cons_of_mem quote
    rintro ⟨first, second, two, source, -⟩
    obtain ⟨tags, read, last⟩ := outputs_jsonpText_quote plain back
    have counted : scripts (scriptTag (bytes "/_.js") :: scriptEnd :: tags) =
        scriptTag (bytes "/_.js") :: scripts tags :=
      rfl
    rw [read, counted] at two
    obtain ⟨-, one⟩ := List.cons.inj two
    rcases last with rfl | ⟨newer, later, rfl⟩
    · cases one
    · have begun : scripts (⟨false, bytes "script", (bytes "src", bytes "/_" ++ front) :: newer⟩ :: later) =
          ⟨false, bytes "script", (bytes "src", bytes "/_" ++ front) :: newer⟩ :: scripts later := rfl
      rw [begun] at one
      obtain ⟨rfl, -⟩ := List.cons.inj one
      have value : Tag.attributeText ⟨false, bytes "script",
          (bytes "src", bytes "/_" ++ front) :: newer⟩ (bytes "src") =
          some (bytes "/_" ++ front) := rfl
      rw [value] at source
      have lengths := congrArg List.length (Option.some.inj source)
      simp at lengths
  · rw [StaysInside, ← reference]
    have read : scripts (reader.outputs .data (jsonpText uri)) = [scriptTag (bytes "/_.js"),
        scriptTag (bytes "/_" ++ uri)] := by
      rw [Transducer.outputs, run_jsonpText quote]
      rfl
    constructor
    · rintro ⟨first, second, -, -, none_⟩
      exact ⟨quote, none_⟩
    · rintro ⟨-, none_⟩
      exact ⟨_, _, read, rfl, none_⟩

/-! ### Requests that differ in the uri

A page depends on the request by its uri alone, through the one text that has it.  So two requests to a
page are compared as one program on two contexts. -/

/-- The same request with another uri, and the response with another content. -/
def Ctx.retarget (c : Ctx) (uri content : Bytes) : Ctx :=
  { req := { c.req with uri := uri }, res := { c.res with content := content } }

/-- A context with its own uri and content is itself. -/
theorem Ctx.retarget_self (c : Ctx) : c.retarget c.req.uri c.res.content = c := rfl

section Retarget

variable (env : Env) (c : Ctx) (uri content : Bytes)

/-- A session looks neither at the uri nor at the content of the response. -/
theorem accepts_retarget (entries : List NameValue) :
    Session.accepts env entries (c.retarget uri content) =
      ((Session.accepts env entries c).1, (Session.accepts env entries c).2.retarget uri content) := by
  unfold Session.accepts
  split
  · rfl
  · split
    · rfl
    · change (if env.cfg.validateIp ∧
        c.req.remoteAddr ≠ NameValue.valueOf entries (bytes "last_ip") then _ else _) = _
      split
      · rfl
      · split <;> rfl

/-- Loading a session does not look at the uri. -/
theorem load_retarget :
    Session.load env (c.retarget uri content) =
      ((Session.load env c).1, (Session.load env c).2.retarget uri content) := by
  have read : (c.retarget uri content).cookieValue env.cfg.sessCookie = c.cookieValue env.cfg.sessCookie :=
    rfl
  have left : (c.retarget uri content).readCookie env.cfg.sessCookie =
      (c.readCookie env.cfg.sessCookie).retarget uri content := rfl
  unfold Session.load
  rw [read, left]
  dsimp only
  split
  · rfl
  · cases Session.readEntries env (c.cookieValue env.cfg.sessCookie) with
    | error e => rfl
    | ok found =>
        cases found with
        | none => rfl
        | some entries =>
            dsimp only
            rw [accepts_retarget]
            dsimp only
            split <;> rfl

theorem update_retarget (s : Session) :
    s.update env (c.retarget uri content) = ((s.update env c).1,
      (s.update env c).2.retarget uri content) := by
  unfold Session.update
  split <;> rfl

theorem construct_retarget :
    Session.construct env (c.retarget uri content) =
      ((Session.construct env c).1, (Session.construct env c).2.retarget uri content) := by
  unfold Session.construct
  rw [load_retarget]
  rcases Session.load env c with ⟨e | _ | s, d⟩
  · rfl
  · rfl
  · dsimp only
    rw [update_retarget]

/-- A session leaves the uri and the content. -/
theorem construct_leaves :
    (Session.construct env c).2.req.uri = c.req.uri ∧
    (Session.construct env c).2.res.content = c.res.content := by
  have same := congrArg Prod.snd (construct_retarget env c c.req.uri c.res.content)
  rw [Ctx.retarget_self] at same
  exact ⟨by rw [same]; rfl, by rw [same]; rfl⟩

end Retarget

/-! ### Pages

`Closed` texts leave the reader of markup outside of any tag or quote, so what is read of the texts behind
them does not depend on them. -/

/-- The tags of a text, without the values of their attributes. -/
def structureOf (text : Bytes) : List (Bool × Bytes × List Bytes) :=
  (reader.outputs .data text).map Tag.shape

/-- A text behind which the reader is not inside a tag, a comment or a script. -/
def Closed (text : Bytes) : Prop := reader.final .data text = .data

/-- Text appended to closed texts of one structure. -/
theorem structureOf_append {text text' : Bytes} (closed : Closed text) (closed' : Closed text')
    (same : structureOf text = structureOf text') {more more' : Bytes}
    (later : structureOf more = structureOf more') :
    structureOf (text ++ more) = structureOf (text' ++ more') := by
  unfold structureOf at *
  rw [Transducer.outputs_append, Transducer.outputs_append, closed, closed', List.map_append,
    List.map_append, same, later]

/-- Closed texts are joined to a closed text. -/
theorem Closed.append {text more : Bytes} (closed : Closed text) (later : Closed more) :
    Closed (text ++ more) := by
  unfold Closed at *
  rw [Transducer.final_append, closed, later]

/-- Pages that differ in uris without a quote have one structure. -/
theorem structureOf_jsonpText {uri uri' : Bytes} (plain : '\''.toUInt8 ∉ uri)
    (plain' : '\''.toUInt8 ∉ uri') :
    structureOf (jsonpText uri) = structureOf (jsonpText uri') := by
  unfold structureOf Transducer.outputs
  rw [run_jsonpText plain, run_jsonpText plain']
  rfl

/-- The text with a uri without the quote is closed. -/
theorem closed_jsonpText {uri : Bytes} (plain : '\''.toUInt8 ∉ uri) : Closed (jsonpText uri) := by
  unfold Closed Transducer.final
  rw [run_jsonpText plain]

/-- What `get_file` appends. -/
def document (env : Env) (name : Bytes) : Bytes := (env.files (openedPath env name)).getD []

/-- A file is appended to the content. -/
theorem readFile_content (env : Env) (name : Bytes) (res : Response) :
    (readFile env name res).2.content = res.content ++ document env name := by
  unfold readFile document openedPath
  dsimp only
  split
  · rename_i missing
    rw [missing, Option.getD_none, List.append_nil]
  · rename_i content found
    rw [found, Option.getD_some]

/-- Two requests that differ in the uri, neither with a quote in it, and whose responses differ in the
    content, of one structure. -/
structure SameMarkup (c c' : Ctx) : Prop where
  rest : c' = c.retarget c'.req.uri c'.res.content
  plain : '\''.toUInt8 ∉ c.req.uri
  plain' : '\''.toUInt8 ∉ c'.req.uri
  closed : Closed c.res.content
  closed' : Closed c'.res.content
  same : structureOf c.res.content = structureOf c'.res.content

/-- The documents of a page are closed. -/
structure ClosedDocuments (env : Env) (file : Bytes) : Prop where
  header : Closed (document env (bytes "dir_include_header.html"))
  body : Closed (document env file)
  footer : Closed (document env (bytes "dir_include_footer.html"))

/-- The session respects the markup. -/
theorem respects_session (env : Env) : (Act.session env).Respects SameMarkup := by
  apply Action.respects_lift
  intro c c' markup
  obtain ⟨uri, content⟩ := construct_leaves env c
  have other := construct_retarget env c c'.req.uri c'.res.content
  rw [← markup.rest] at other
  rw [other]
  refine ⟨rfl, rfl, ?_, markup.plain', ?_, markup.closed', ?_⟩
  · rw [uri]
    exact markup.plain
  · rw [content]
    exact markup.closed
  · rw [content]
    exact markup.same

theorem respects_getFile {env : Env} {name : Bytes} (closed : Closed (document env name)) :
    (getFile env name).Respects SameMarkup := by
  apply Action.respects_lift
  intro c c' markup
  have one := readFile_content env name c.res
  have two := readFile_content env name c'.res
  have agree : (readFile env name c'.res).1 = (readFile env name c.res).1 ∧
      ({ c' with res := (readFile env name c'.res).2 } : Ctx) =
        ({ c with res := (readFile env name c.res).2 } : Ctx).retarget c'.req.uri
          ((readFile env name c'.res).2.content) := by
    rw [markup.rest]
    unfold readFile
    dsimp only
    split <;> exact ⟨rfl, rfl⟩
  refine ⟨congrArg Except.ok agree.1.symm, agree.2, markup.plain, markup.plain', ?_, ?_, ?_⟩
  · dsimp only
    rw [one]
    exact markup.closed.append closed
  · dsimp only
    rw [two]
    exact markup.closed'.append closed
  · dsimp only
    rw [one, two]
    exact structureOf_append markup.closed markup.closed' markup.same rfl

/-- The text with the uri does, as far as the uris have no quote. -/
theorem respects_setJsonp : setJsonp.Respects SameMarkup := by
  apply Action.respects_modify
  intro c c' markup
  rw [append_jsonpText, append_jsonpText]
  refine ⟨?_, markup.plain, markup.plain', ?_, ?_, ?_⟩
  · dsimp only
    conv_lhs => rw [markup.rest]
    rfl
  · exact markup.closed.append (closed_jsonpText markup.plain)
  · exact markup.closed'.append (closed_jsonpText markup.plain')
  · exact structureOf_append markup.closed markup.closed' markup.same
      (structureOf_jsonpText markup.plain markup.plain')

theorem respects_redirectTo (url : Bytes) : (Act.redirectTo url).Respects SameMarkup := by
  apply Action.respects_modify
  intro c c' markup
  have blank : reader.final .data (bytes " ") = .data := by decide +kernel
  refine ⟨?_, markup.plain, markup.plain', blank, blank, rfl⟩
  conv_lhs => rw [markup.rest]
  rfl

/-- A page of the forum: requests that differ in the uri get pages of one structure. -/
theorem respects_html {env : Env} {file : Bytes} (closed : ClosedDocuments env file) :
    (DirForum.html env file).Respects SameMarkup := by
  apply Action.respects_bind (respects_session env)
  intro sess
  apply Action.respects_ite
  · intro _
    exact respects_redirectTo _
  · intro _
    apply Action.respects_bind (respects_getFile closed.header)
    intro _
    apply Action.respects_bind (respects_getFile closed.body)
    intro _
    apply Action.respects_bind respects_setJsonp
    intro _
    apply Action.respects_bind (respects_getFile closed.footer)
    intro _
    exact Action.respects_pure ()

/-! ### The documents as they are shipped -/

section Shipped

open Documents

set_option maxRecDepth 20000 in
/-- The header that pages include is closed. -/
theorem closed_dirIncludeHeader : Closed dirIncludeHeader := final_literal rfl (by decide +kernel)

theorem closed_dirIncludeFooter : Closed dirIncludeFooter := final_literal rfl (by decide +kernel)

set_option maxRecDepth 20000 in
theorem closed_dirForumIndex : Closed dirForumIndex := by
  unfold Closed dirForumIndex
  -- The second and the third part of the document begin inside its script.
  rw [Transducer.final_append, Transducer.final_append,
    @final_literal _ _ rfl .data (.text (bytes "script") .none 0) (by decide +kernel),
    @final_literal _ _ rfl (.text (bytes "script") .none 0) (.text (bytes "script") .none 0)
    (by decide +kernel)]
  exact final_literal rfl (by decide +kernel)

set_option maxRecDepth 20000 in
theorem closed_dirForumShow : Closed dirForumShow := final_literal rfl (by decide +kernel)

set_option maxRecDepth 20000 in
theorem closed_dirForumForm : Closed dirForumForm := final_literal rfl (by decide +kernel)

/-- The site has the documents as they are shipped. -/
structure Ships (env : Env) : Prop where
  header : document env (bytes "dir_include_header.html") = dirIncludeHeader
  footer : document env (bytes "dir_include_footer.html") = dirIncludeFooter
  index : document env (bytes "dir_forum_index.html") = dirForumIndex
  show_ : document env (bytes "dir_forum_show.html") = dirForumShow
  form : document env (bytes "dir_forum_form.html") = dirForumForm

/-- The pages of such a site are made of closed documents. -/
theorem closedDocuments_of_ships {env : Env} (ships : Ships env) :
    ClosedDocuments env (bytes "dir_forum_index.html") ∧ ClosedDocuments env (bytes "dir_forum_show.html") ∧
      ClosedDocuments env (bytes "dir_forum_form.html") := by
  have header : Closed (document env (bytes "dir_include_header.html")) :=
    ships.header ▸ closed_dirIncludeHeader
  have footer : Closed (document env (bytes "dir_include_footer.html")) :=
    ships.footer ▸ closed_dirIncludeFooter
  exact ⟨⟨header, ships.index ▸ closed_dirForumIndex, footer⟩,
    ⟨header, ships.show_ ▸ closed_dirForumShow, footer⟩, ⟨header, ships.form ▸ closed_dirForumForm, footer⟩⟩

end Shipped

/-! ### Uris in pages -/

/-- The same request with another uri. -/
def Ctx.withUri (c : Ctx) (uri : Bytes) : Ctx := { c with req := { c.req with uri := uri } }

/-- Of one request to a page of the forum, with either uri, the pages have one structure. -/
def SamePages (uri uri' : Bytes) : Prop :=
  ∀ (env : Env) (file : Bytes), ClosedDocuments env file →
    ∀ (ω : Type) (serve : (q : DbCall) → ω → Reply q × ω) (c : Ctx) (world : ω), c.res.content = [] →
      structureOf ((DirForum.html env file).exec serve (c.withUri uri) world).1.2.res.content =
        structureOf ((DirForum.html env file).exec serve (c.withUri uri') world).1.2.res.content

/-- Neither uri injects markup. -/
structure MarkupContained (names : List Bytes) (uri uri' : Bytes) : Prop where
  one : Contained names uri
  two : Contained names uri'
  pages : SamePages uri uri'

/-- Uris without the quote give pages with the same markup. -/
theorem samePages_of_plain {uri uri' : Bytes} (plain : '\''.toUInt8 ∉ uri) (plain' : '\''.toUInt8 ∉ uri') :
    SamePages uri uri' := by
  intro env file closed ω serve c world fresh
  have empty : Closed c.res.content := by
    rw [fresh]
    rfl
  have markup : SameMarkup (c.withUri uri) (c.withUri uri') := ⟨rfl, plain, plain', empty, empty, rfl⟩
  exact ((respects_html closed).exec markup serve world).1.2.same

/-- Two uris inject no markup exactly when neither has a quote or holds a character reference. -/
theorem markup_contained_iff (names : List Bytes) (uri uri' : Bytes) :
    MarkupContained names uri uri' ↔ StaysInside names uri ∧ StaysInside names uri' := by
  constructor
  · rintro ⟨one, two, -⟩
    exact ⟨(contained_iff names uri).mp one, (contained_iff names uri').mp two⟩
  · rintro ⟨one, two⟩
    exact ⟨(contained_iff names uri).mpr one, (contained_iff names uri').mpr two,
      samePages_of_plain one.1 two.1⟩

/-- A path of the forum's index with a quote, the end of the script and a script of its own. -/
private def scriptUri : Bytes := bytes "/dir/forum/index/'></script><script>x</script>"

/-- The request is accepted and goes to the index, and its page has a third script. -/
theorem script_injected :
    parse (.start {}) (bytes "GET /dir/forum/index/'></script><script>x</script> HTTP/1.1\r\n\r\n") =
      ⟨.yes, ⟨.expectingNewline3, getRequest {} scriptUri [] 1 1 []⟩, 63⟩ ∧
      destination bareEnv (routes bareEnv) scriptUri = some (.handler (bytes "/dir/forum/index/")) ∧
      scripts (reader.outputs .data (jsonpText scriptUri)) =
        [scriptTag (bytes "/_.js"), scriptTag (bytes "/_/dir/forum/index/"), ⟨false, bytes "script", []⟩] ∧
      (∀ names, ¬ Contained names scriptUri) ∧
      structureOf (jsonpText scriptUri) ≠ structureOf (jsonpText (bytes "/dir/forum/index/1")) := by
  have three : scripts (reader.outputs .data (jsonpText scriptUri)) =
      [scriptTag (bytes "/_.js"), scriptTag (bytes "/_/dir/forum/index/"), ⟨false, bytes "script", []⟩] := by
    decide +kernel
  refine ⟨by decide +kernel, by decide +kernel, three, ?_, by decide +kernel⟩
  rintro names ⟨first, second, two, -⟩
  rw [three] at two
  have lengths : 3 = 2 := congrArg List.length two
  exact absurd lengths (by decide)

end Waspp
