/-
Module: Waspp.Model.Documents
Layer: Model
Purpose: The documents in doc/ that the pages of the forum are made of.
Imports: Waspp.Foundation.CString
Trusted boundary: copies of the files in doc/
Main exports: dirIncludeHeader, dirIncludeFooter, dirForumIndex, dirForumShow, dirForumForm
Open obligations: none
-/
import Waspp.Foundation.CString

namespace Waspp.Documents

open CString

/-- `dir_include_header.html`. -/
def dirIncludeHeader : Bytes :=
  bytes "<!DOCTYPE html>

<html>
<head>
\t<title>WASPP : Web Application Server written in C++</title>
\t<meta charset='utf-8'>
\t<meta name='viewport' content='initial-scale=1'>
\t<style type='text/css'>
\t\tbody
\t\t\x7b
\t\t\tbackground-color:#fff; color:#666;
\t\t\tfont-size:.8em; font-family:tahoma, geneva, sans-serif;
\t\t\x7d

\t\t.root \x7b width:770px \x7d

\t\t.left \x7b float:left \x7d
\t\t.right \x7b float:right \x7d
\t\t.clear \x7b clear:both \x7d

\t\ta \x7b color:#06c; text-decoration:none \x7d
\t\ta:hover \x7b color:#06c; text-decoration:underline \x7d

\t\th2 \x7b color:#666; font-weight:normal \x7d

\t\tform \x7b clear:both; margin:0 \x7d
\t\tfieldset
\t\t\x7b
\t\t\tborder:1px solid #eee; padding-left:1.5em; padding-bottom:1.5em
\t\t\x7d
\t\t
\t\tlabel
\t\t\x7b
\t\t\tmargin-top:1.2em; margin-bottom:.2em; display:block; font-weight:bold
\t\t\x7d

\t\tinput \x7b font-family:tahoma, geneva, sans-serif \x7d
\t\t.input-text \x7b width:400px; \x7d
\t\tselect \x7b font-family:tahoma, geneva, sans-serif \x7d

\t\ttextarea
\t\t\x7b
\t\t\twidth:740px; height:300px; font-size:1em;
\t\t\tfont-family:tahoma, geneva, sans-serif
\t\t\x7d

\t\t.nav-top \x7b margin-bottom:.5em \x7d
\t\t.nav-bottom \x7b margin-top:.5em \x7d

\t\ttable \x7b width:100%; border:1px solid #ddd; border-collapse:collapse \x7d
\t\t.hover tr:hover \x7b background-color:#eee \x7d

\t\tth
\t\t\x7b
\t\t\tbackground-color:#eee;
\t\t\tborder:1px solid #ddd; border-collapse:collapse; padding:.5em
\t\t\x7d
\t\t
\t\ttd \x7b border:1px solid #ddd; border-collapse:collapse; padding:.5em \x7d
\t\t.th-fixed-width \x7b width:150px \x7d

\t\t.pagination
\t\t\x7b
\t\t\t border-bottom:1px solid #ddd;
\t\t\t margin-top:.5em; padding-bottom:.8em; text-align:center
\t\t\x7d
\t\t
\t\t.history_go \x7b border:0; background-color:#fff; color:#06c \x7d
\t</style>
</head>

<body>
<div class='root'>
"

/-- `dir_include_footer.html`. -/
def dirIncludeFooter : Bytes :=
  bytes "
</div>

</body>
</html>"

/-- `dir_forum_index.html`. -/
def dirForumIndex : Bytes :=
  bytes "
<h2 class='left'>Forum :: Index</h2>

<span class='right _session'><span class='_username'></span> | <a href='/dir/user/signout'>SignOut</a></span>

<form id='form_search' action='/dir/forum/index'>
<div class='nav-top'>
\t<select name='field'>
\t\t<option value='2' >Title</option>
\t\t<option value='3' >Content</option>
\t\t<option value='4' >File1</option>
\t\t<option value='5' >File2</option>
\t\t<option value='6' >Username</option>
\t</select>
\t<input type='text' name='keyword' value=''>
\t<input type='submit' value='Search'>
\t<span class='right'>
\t\t<a href='/dir/forum/form'>New</a>
\t</span>
</div>
</form>

<form id='form_batch' method='post' action='/dir/forum/batch'>
<table class='hover _forum_index'>
\t<tr>
\t\t<th>
\t\t\t<input type='checkbox' name='check_all'>
\t\t</th>
\t\t<th>
\t\t\tSeq.
\t\t</th>
\t\t<th>Title</th>
\t\t<th>Username</th>
\t\t<th>UpdateTime</th>
\t\t<th>Show | Update | Delete</th>
\t</tr>
\t<tr>
\t\t<td>
\t\t\t<input type='checkbox' name='check'>
\t\t</td>
\t\t<td class='_seq'></td>
\t\t<td class='_title'></td>
\t\t<td class='_username'></td>
\t\t<td class='_updatetime'></td>
\t\t<td><a href=''>Show</a> | <a href=''>Update</a> | <a href=''>Delete</a></td>
\t</tr>
</table>

<div>
\t<span class='left'><input type='checkbox' name='check_all'></span>
\t<div class='pagination'></div>
</div>

<div class='nav-bottom'>
\t<input type='submit' name='delete_multiple' value='Delete'>
\t<span class='right'>

\t\tPrev |

\t\tNext

\t</span>
</div>
</form>

<script type='text/javascript'>
window.onload = function()
\x7b
" ++
  bytes "\tdocument.getElementById('form_search').onsubmit = function()
\t\x7b
\t\twindow.location.href = '/dir/forum/index/1/' + this.field.value + '/' + this.keyword.value;
\t\treturn false;
\t\x7d

\tvar CheckAll = function(checked)
\t\x7b
\t\tvar inputs = document.getElementsByTagName('input');
\t\tfor (var i = 0; i < inputs.length; ++i)
\t\t\x7b
\t\t\tif ('checkbox' != inputs[i].type)
\t\t\t\x7b
\t\t\t\tcontinue;
\t\t\t\x7d
\t\t\tinputs[i].checked = checked;
\t\t\x7d
\t\x7d

\tvar checkall_checkboxes = document.getElementsByName('check_all');
\tfor (var i = 0; i < checkall_checkboxes.length; ++i)
\t\x7b
\t\tcheckall_checkboxes[i].onclick = function()
\t\t\x7b
\t\t\tCheckAll(this.checked);
\t\t\x7d
\t\x7d

\tvar Pagination = function()
\t\x7b
\t\tvar pagination = document.getElementsByClassName('pagination')[0];

\t\tvar form_search = document.getElementById('form_search');
\t\tvar field = form_search.field.value;
\t\tvar keyword = form_search.keyword.value;

\t\tvar page = 1;
\t\tvar page_count = 1;
\t\tvar link_count = 10;
\t\tvar link_href = '/dir/forum/index/';
\t\tvar i = parseInt((page - 1) / link_count) * link_count + 1;

\t\tif (i > link_count)
\t\t\x7b
\t\t\tvar a_first = document.createElement('a');
\t\t\ta_first.setAttribute('href', link_href + '1/' + field + '/' + keyword);
\t\t\ta_first.appendChild(document.createTextNode('1'));
\t\t\tpagination.appendChild(a_first);
\t\t\tpagination.appendChild(document.createTextNode(' \\u00a0'));

\t\t\tvar a_prev = document.createElement('a');
\t\t\ta_prev.setAttribute('href', link_href + (i - 1) + '/' + field + '/' + keyword);
" ++
  bytes "\t\t\ta_prev.appendChild(document.createTextNode('<<'));
\t\t\tpagination.appendChild(a_prev);
\t\t\tpagination.appendChild(document.createTextNode(' \\u00a0'));
\t\t\x7d

\t\tfor (var j = 0; i <= page_count && j < link_count; ++i, ++j)
\t\t\x7b
\t\t\tif (i == page)
\t\t\t\x7b
\t\t\t\tvar b_page = document.createElement('b');
\t\t\t\tb_page.appendChild(document.createTextNode(i));
\t\t\t\tpagination.appendChild(b_page);
\t\t\t\tpagination.appendChild(document.createTextNode(' \\u00a0'));
\t\t\t\x7d
\t\t\telse
\t\t\t\x7b
\t\t\t\tvar a_page = document.createElement('a');
\t\t\t\ta_page.setAttribute('href', link_href + i + '/' + field + '/' + keyword);
\t\t\t\ta_page.appendChild(document.createTextNode(i));
\t\t\t\tpagination.appendChild(a_page);
\t\t\t\tpagination.appendChild(document.createTextNode(' \\u00a0'));
\t\t\t\x7d
\t\t\x7d

\t\tif (i <= page_count)
\t\t\x7b
\t\t\tvar a_next = document.createElement('a');
\t\t\ta_next.setAttribute('href', link_href + i + '/' + field + '/' + keyword);
\t\t\ta_next.appendChild(document.createTextNode('>>'));
\t\t\tpagination.appendChild(a_next);
\t\t\tpagination.appendChild(document.createTextNode(' \\u00a0'));

\t\t\tvar a_last = document.createElement('a');
\t\t\ta_last.setAttribute('href', link_href + page_count + '/' + field + '/' + keyword);
\t\t\ta_last.appendChild(document.createTextNode(page_count));
\t\t\tpagination.appendChild(a_last);
\t\t\tpagination.appendChild(document.createTextNode(' \\u00a0'));
\t\t\x7d
\t\x7d

\tPagination();
\x7d
</script>
"

/-- `dir_forum_show.html`. -/
def dirForumShow : Bytes :=
  bytes "
<h2 class='left'>Forum :: Show</h2>

<span class='right'><a href='/dir/user/signout'>SignOut</a></span>

<form method='post'>
<table>
\t<tr>
\t\t<th class='th-fixed-width'>Title</th>
\t\t<td>test</td>
\t</tr>
\t<tr>
\t\t<td colspan='2'>test</td>
\t</tr>
\t<tr>
\t\t<th>File1</th>
\t\t<td>
\t\t</td>
\t</tr>
\t<tr>
\t\t<th>File2</th>
\t\t<td>
\t\t</td>
\t</tr>
\t<tr>
\t\t<th>Username</th>
\t\t<td>test</td>
\t</tr>
\t<tr>
\t\t<th>InsertTime</th>
\t\t<td>2015-03-04 14:42:04</td>
\t</tr>
\t<tr>
\t\t<th>UpdateTime</th>
\t\t<td>2015-03-04 14:42:04</td>
\t</tr>
</table>

<div class='nav-bottom'>
\t<span class='right'>
\t\t<input type='button' name='list' class='history_go' value='List'>
\t</span>
</div>

</form>

<script type='text/javascript'>
window.onload = function()
\x7b
\tvar list_buttons = document.getElementsByName('list');
\tfor (var i = 0; i < list_buttons.length; ++i)
\t\x7b
\t\tlist_buttons[i].onclick = function()
\t\t\x7b
\t\t\thistory.go(-1);
\t\t\x7d
\t\x7d
\x7d
</script>
"

/-- `dir_forum_form.html`. -/
def dirForumForm : Bytes :=
  bytes "
<h2 class='left'>Forum :: Form</h2>

<span class='right'><a href='/dir/user/signout'>SignOut</a></span>

<form method='post' action='/dir/forum/post' enctype='multipart/form-data'>
<table>
\t<tr>
\t\t<th class='th-fixed-width'>Title</th>
\t\t<td>
\t\t\t<input type='hidden' name='seq' class='_seq'>
\t\t\t<input type='hidden' name='page' class='_page'>
\t\t\t<input type='text' name='title' class='input-text _title'>
\t\t</td>
\t</tr>
\t<tr>
\t\t<td colspan='2'>
\t\t\t<textarea name='content' class='_content' rows='20' cols='80'></textarea>
\t\t</td>
\t</tr>
\t<tr>
\t\t<th>File1</th>
\t\t<td>
\t\t\t<input type='file' name='file1'>
\t\t\t<a href='' class='_filelink1'><span class='_filename1'></span></a>
\t\t</td>
\t</tr>
\t<tr>
\t\t<th>File2</th>
\t\t<td>
\t\t\t<input type='file' name='file2'>
\t\t\t<a href='' class='_filelink2'><span class='_filename2'></span></a>
\t\t</td>
\t</tr>
\t<tr>
\t\t<th>Username</th>
\t\t<td class='_session'><span class='_username'></span></td>
\t</tr>
\t<tr>
\t\t<th>InsertTime</th>
\t\t<td></td>
\t</tr>
\t<tr>
\t\t<th>UpdateTime</th>
\t\t<td></td>
\t</tr>
</table>

<div class='nav-bottom'>
\t<input type='submit' value='Submit'>
\t<span class='right'>
\t\t<input type='button' name='cancel' class='history_go' value='Cancel'>
\t</span>
</div>

</form>

<script type='text/javascript'>
window.onload = function()
\x7b
\tvar cancel_buttons = document.getElementsByName('cancel');
\tfor (var i = 0; i < cancel_buttons.length; ++i)
\t\x7b
\t\tcancel_buttons[i].onclick = function()
\t\t\x7b
\t\t\thistory.go(-1);
\t\t\x7d
\t\x7d
\x7d
</script>
"

end Waspp.Documents
