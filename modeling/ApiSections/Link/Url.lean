namespace ApiSections.Link

/-- Whether `needle` stands somewhere in `text`. -/
def occurs (needle : List Char) : List Char → Bool
  | [] => needle.isEmpty
  | c :: rest => needle.isPrefixOf (c :: rest) || occurs needle rest

/-- Hosts that keep blobs under a dash. -/
def hasDashLayout (url : List Char) : Bool :=
  occurs "://gitlab.com".toList url || occurs "://www.gitlab.com".toList url

def dropSlash (url : List Char) : List Char :=
  if url.getLast? = some '/' then url.dropLast else url

/-- The address of one line of a file in a hosted repository. -/
def deepLink (repoUrl path : String) (line : Int) (branch : String) : String :=
  let base := dropSlash repoUrl.toList
  let folder := if hasDashLayout base then "/-/blob/" else "/blob/"
  String.ofList base ++ folder ++ branch ++ "/" ++ path ++ "#L" ++ toString line

end ApiSections.Link
