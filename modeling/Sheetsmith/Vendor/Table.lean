import Sheetsmith.Vendor.Basic

namespace Sheetsmith

/-- How a declaration gets its vendor forms. -/
inductive VendorRule where
  /-- Copies under the vendors' names. -/
  | renamed (forms : VendorForms)
  /-- A quoted twin for the filters of one vendor. -/
  | filterTwin
  /-- The opacity as a filter. -/
  | opacityFilters
  /-- The vendors' keywords for preserved white space. -/
  | wrapKeywords
  /-- Copies with the vendors' gradient functions in the value. -/
  | gradients
deriving DecidableEq

namespace VendorRule

/-- The properties with a rule of their own, in alphabetical order. -/
def table : List (String × VendorRule) := [
  ("animation", .renamed ⟨none, some "-webkit-animation", none, none⟩),
  ("animation-delay", .renamed ⟨none, some "-webkit-animation-delay", none, none⟩),
  ("animation-direction", .renamed ⟨none, some "-webkit-animation-direction", none, none⟩),
  ("animation-duration", .renamed ⟨none, some "-webkit-animation-duration", none, none⟩),
  ("animation-fill-mode", .renamed ⟨none, some "-webkit-animation-fill-mode", none, none⟩),
  ("animation-iteration-count",
    .renamed ⟨none, some "-webkit-animation-iteration-count", none, none⟩),
  ("animation-name", .renamed ⟨none, some "-webkit-animation-name", none, none⟩),
  ("animation-play-state", .renamed ⟨none, some "-webkit-animation-play-state", none, none⟩),
  ("animation-timing-function",
    .renamed ⟨none, some "-webkit-animation-timing-function", none, none⟩),
  ("appearance", .renamed ⟨some "-moz-appearance", some "-webkit-appearance", none, none⟩),
  ("backface-visibility", .renamed ⟨none, some "-webkit-backface-visibility", none, none⟩),
  ("background-clip", .renamed ⟨none, some "-webkit-background-clip", none, none⟩),
  ("background-composite", .renamed ⟨none, some "-webkit-background-composite", none, none⟩),
  ("background-inline-policy", .renamed ⟨some "-moz-background-inline-policy", none, none, none⟩),
  ("background-origin", .renamed ⟨none, some "-webkit-background-origin", none, none⟩),
  ("background-position-x", .renamed ⟨none, none, none, some "-ms-background-position-x"⟩),
  ("background-position-y", .renamed ⟨none, none, none, some "-ms-background-position-y"⟩),
  ("background-size", .renamed ⟨none, some "-webkit-background-size", none, none⟩),
  ("behavior", .renamed ⟨none, none, none, some "-ms-behavior"⟩),
  ("binding", .renamed ⟨some "-moz-binding", none, none, none⟩),
  ("border-after", .renamed ⟨none, some "-webkit-border-after", none, none⟩),
  ("border-after-color", .renamed ⟨none, some "-webkit-border-after-color", none, none⟩),
  ("border-after-style", .renamed ⟨none, some "-webkit-border-after-style", none, none⟩),
  ("border-after-width", .renamed ⟨none, some "-webkit-border-after-width", none, none⟩),
  ("border-before", .renamed ⟨none, some "-webkit-border-before", none, none⟩),
  ("border-before-color", .renamed ⟨none, some "-webkit-border-before-color", none, none⟩),
  ("border-before-style", .renamed ⟨none, some "-webkit-border-before-style", none, none⟩),
  ("border-before-width", .renamed ⟨none, some "-webkit-border-before-width", none, none⟩),
  ("border-bottom-colors", .renamed ⟨some "-moz-border-bottom-colors", none, none, none⟩),
  ("border-bottom-left-radius",
    .renamed ⟨some "-moz-border-radius-bottomleft", some "-webkit-border-bottom-left-radius",
      none, none⟩),
  ("border-bottom-right-radius",
    .renamed ⟨some "-moz-border-radius-bottomright", some "-webkit-border-bottom-right-radius",
      none, none⟩),
  ("border-end", .renamed ⟨some "-moz-border-end", some "-webkit-border-end", none, none⟩),
  ("border-end-color",
    .renamed ⟨some "-moz-border-end-color", some "-webkit-border-end-color", none, none⟩),
  ("border-end-style",
    .renamed ⟨some "-moz-border-end-style", some "-webkit-border-end-style", none, none⟩),
  ("border-end-width",
    .renamed ⟨some "-moz-border-end-width", some "-webkit-border-end-width", none, none⟩),
  ("border-fit", .renamed ⟨none, some "-webkit-border-fit", none, none⟩),
  ("border-horizontal-spacing",
    .renamed ⟨none, some "-webkit-border-horizontal-spacing", none, none⟩),
  ("border-image", .renamed ⟨some "-moz-border-image", some "-webkit-border-image", none, none⟩),
  ("border-left-colors", .renamed ⟨some "-moz-border-left-colors", none, none, none⟩),
  ("border-radius", .renamed ⟨some "-moz-border-radius", some "-webkit-border-radius", none, none⟩),
  ("border-right-colors", .renamed ⟨some "-moz-border-right-colors", none, none, none⟩),
  ("border-start", .renamed ⟨some "-moz-border-start", some "-webkit-border-start", none, none⟩),
  ("border-start-color",
    .renamed ⟨some "-moz-border-start-color", some "-webkit-border-start-color", none, none⟩),
  ("border-start-style",
    .renamed ⟨some "-moz-border-start-style", some "-webkit-border-start-style", none, none⟩),
  ("border-start-width",
    .renamed ⟨some "-moz-border-start-width", some "-webkit-border-start-width", none, none⟩),
  ("border-top-colors", .renamed ⟨some "-moz-border-top-colors", none, none, none⟩),
  ("border-top-left-radius",
    .renamed ⟨some "-moz-border-radius-topleft", some "-webkit-border-top-left-radius",
      none, none⟩),
  ("border-top-right-radius",
    .renamed ⟨some "-moz-border-radius-topright", some "-webkit-border-top-right-radius",
      none, none⟩),
  ("border-vertical-spacing", .renamed ⟨none, some "-webkit-border-vertical-spacing", none, none⟩),
  ("box-align", .renamed ⟨some "-moz-box-align", some "-webkit-box-align", none, none⟩),
  ("box-direction", .renamed ⟨some "-moz-box-direction", some "-webkit-box-direction", none, none⟩),
  ("box-flex", .renamed ⟨some "-moz-box-flex", some "-webkit-box-flex", none, none⟩),
  ("box-flex-group", .renamed ⟨none, some "-webkit-box-flex-group", none, none⟩),
  ("box-flex-lines", .renamed ⟨none, some "-webkit-box-flex-lines", none, none⟩),
  ("box-ordinal-group",
    .renamed ⟨some "-moz-box-ordinal-group", some "-webkit-box-ordinal-group", none, none⟩),
  ("box-orient", .renamed ⟨some "-moz-box-orient", some "-webkit-box-orient", none, none⟩),
  ("box-pack", .renamed ⟨some "-moz-box-pack", some "-webkit-box-pack", none, none⟩),
  ("box-reflect", .renamed ⟨none, some "-webkit-box-reflect", none, none⟩),
  ("box-shadow", .renamed ⟨some "-moz-box-shadow", some "-webkit-box-shadow", none, none⟩),
  ("box-sizing", .renamed ⟨some "-moz-box-sizing", none, none, none⟩),
  ("color-correction", .renamed ⟨none, some "-webkit-color-correction", none, none⟩),
  ("column-break-after", .renamed ⟨none, some "-webkit-column-break-after", none, none⟩),
  ("column-break-before", .renamed ⟨none, some "-webkit-column-break-before", none, none⟩),
  ("column-break-inside", .renamed ⟨none, some "-webkit-column-break-inside", none, none⟩),
  ("column-count", .renamed ⟨some "-moz-column-count", some "-webkit-column-count", none, none⟩),
  ("column-gap", .renamed ⟨some "-moz-column-gap", some "-webkit-column-gap", none, none⟩),
  ("column-rule", .renamed ⟨some "-moz-column-rule", some "-webkit-column-rule", none, none⟩),
  ("column-rule-color",
    .renamed ⟨some "-moz-column-rule-color", some "-webkit-column-rule-color", none, none⟩),
  ("column-rule-style",
    .renamed ⟨some "-moz-column-rule-style", some "-webkit-column-rule-style", none, none⟩),
  ("column-rule-width",
    .renamed ⟨some "-moz-column-rule-width", some "-webkit-column-rule-width", none, none⟩),
  ("column-span", .renamed ⟨none, some "-webkit-column-span", none, none⟩),
  ("column-width", .renamed ⟨some "-moz-column-width", some "-webkit-column-width", none, none⟩),
  ("columns", .renamed ⟨none, some "-webkit-columns", none, none⟩),
  ("filter", .filterTwin),
  ("float-edge", .renamed ⟨some "-moz-float-edge", none, none, none⟩),
  ("font-feature-settings", .renamed ⟨some "-moz-font-feature-settings", none, none, none⟩),
  ("font-language-override", .renamed ⟨some "-moz-font-language-override", none, none, none⟩),
  ("font-size-delta", .renamed ⟨none, some "-webkit-font-size-delta", none, none⟩),
  ("font-smoothing", .renamed ⟨none, some "-webkit-font-smoothing", none, none⟩),
  ("force-broken-image-icon", .renamed ⟨some "-moz-force-broken-image-icon", none, none, none⟩),
  ("highlight", .renamed ⟨none, some "-webkit-highlight", none, none⟩),
  ("hyphenate-character", .renamed ⟨none, some "-webkit-hyphenate-character", none, none⟩),
  ("hyphenate-locale", .renamed ⟨none, some "-webkit-hyphenate-locale", none, none⟩),
  ("hyphens", .renamed ⟨none, some "-webkit-hyphens", none, none⟩),
  ("image-region", .renamed ⟨some "-moz-image-region", none, none, none⟩),
  ("ime-mode", .renamed ⟨none, none, none, some "-ms-ime-mode"⟩),
  ("interpolation-mode", .renamed ⟨none, none, none, some "-ms-interpolation-mode"⟩),
  ("layout-flow", .renamed ⟨none, none, none, some "-ms-layout-flow"⟩),
  ("layout-grid", .renamed ⟨none, none, none, some "-ms-layout-grid"⟩),
  ("layout-grid-char", .renamed ⟨none, none, none, some "-ms-layout-grid-char"⟩),
  ("layout-grid-line", .renamed ⟨none, none, none, some "-ms-layout-grid-line"⟩),
  ("layout-grid-mode", .renamed ⟨none, none, none, some "-ms-layout-grid-mode"⟩),
  ("layout-grid-type", .renamed ⟨none, none, none, some "-ms-layout-grid-type"⟩),
  ("line-break", .renamed ⟨none, some "-webkit-line-break", none, some "-ms-line-break"⟩),
  ("line-clamp", .renamed ⟨none, some "-webkit-line-clamp", none, none⟩),
  ("line-grid-mode", .renamed ⟨none, none, none, some "-ms-line-grid-mode"⟩),
  ("logical-height", .renamed ⟨none, some "-webkit-logical-height", none, none⟩),
  ("logical-width", .renamed ⟨none, some "-webkit-logical-width", none, none⟩),
  ("margin-after", .renamed ⟨none, some "-webkit-margin-after", none, none⟩),
  ("margin-after-collapse", .renamed ⟨none, some "-webkit-margin-after-collapse", none, none⟩),
  ("margin-before", .renamed ⟨none, some "-webkit-margin-before", none, none⟩),
  ("margin-before-collapse", .renamed ⟨none, some "-webkit-margin-before-collapse", none, none⟩),
  ("margin-bottom-collapse", .renamed ⟨none, some "-webkit-margin-bottom-collapse", none, none⟩),
  ("margin-collapse", .renamed ⟨none, some "-webkit-margin-collapse", none, none⟩),
  ("margin-end", .renamed ⟨some "-moz-margin-end", some "-webkit-margin-end", none, none⟩),
  ("margin-start", .renamed ⟨some "-moz-margin-start", some "-webkit-margin-start", none, none⟩),
  ("margin-top-collapse", .renamed ⟨none, some "-webkit-margin-top-collapse", none, none⟩),
  ("marquee", .renamed ⟨none, some "-webkit-marquee", none, none⟩),
  ("marquee-direction", .renamed ⟨none, some "-webkit-marquee-direction", none, none⟩),
  ("marquee-increment", .renamed ⟨none, some "-webkit-marquee-increment", none, none⟩),
  ("marquee-repetition", .renamed ⟨none, some "-webkit-marquee-repetition", none, none⟩),
  ("marquee-speed", .renamed ⟨none, some "-webkit-marquee-speed", none, none⟩),
  ("marquee-style", .renamed ⟨none, some "-webkit-marquee-style", none, none⟩),
  ("mask", .renamed ⟨none, some "-webkit-mask", none, none⟩),
  ("mask-attachment", .renamed ⟨none, some "-webkit-mask-attachment", none, none⟩),
  ("mask-box-image", .renamed ⟨none, some "-webkit-mask-box-image", none, none⟩),
  ("mask-clip", .renamed ⟨none, some "-webkit-mask-clip", none, none⟩),
  ("mask-composite", .renamed ⟨none, some "-webkit-mask-composite", none, none⟩),
  ("mask-image", .renamed ⟨none, some "-webkit-mask-image", none, none⟩),
  ("mask-origin", .renamed ⟨none, some "-webkit-mask-origin", none, none⟩),
  ("mask-position", .renamed ⟨none, some "-webkit-mask-position", none, none⟩),
  ("mask-position-x", .renamed ⟨none, some "-webkit-mask-position-x", none, none⟩),
  ("mask-position-y", .renamed ⟨none, some "-webkit-mask-position-y", none, none⟩),
  ("mask-repeat", .renamed ⟨none, some "-webkit-mask-repeat", none, none⟩),
  ("mask-repeat-x", .renamed ⟨none, some "-webkit-mask-repeat-x", none, none⟩),
  ("mask-repeat-y", .renamed ⟨none, some "-webkit-mask-repeat-y", none, none⟩),
  ("mask-size", .renamed ⟨none, some "-webkit-mask-size", none, none⟩),
  ("match-nearest-mail-blockquote-color",
    .renamed ⟨none, some "-webkit-match-nearest-mail-blockquote-color", none, none⟩),
  ("max-logical-height", .renamed ⟨none, some "-webkit-max-logical-height", none, none⟩),
  ("max-logical-width", .renamed ⟨none, some "-webkit-max-logical-width", none, none⟩),
  ("min-logical-height", .renamed ⟨none, some "-webkit-min-logical-height", none, none⟩),
  ("min-logical-width", .renamed ⟨none, some "-webkit-min-logical-width", none, none⟩),
  ("object-fit", .renamed ⟨none, none, some "-o-object-fit", none⟩),
  ("object-position", .renamed ⟨none, none, some "-o-object-position", none⟩),
  ("opacity", .opacityFilters),
  ("outline-radius", .renamed ⟨some "-moz-outline-radius", none, none, none⟩),
  ("outline-bottom-left-radius",
    .renamed ⟨some "-moz-outline-radius-bottomleft", none, none, none⟩),
  ("outline-bottom-right-radius",
    .renamed ⟨some "-moz-outline-radius-bottomright", none, none, none⟩),
  ("outline-top-left-radius", .renamed ⟨some "-moz-outline-radius-topleft", none, none, none⟩),
  ("outline-top-right-radius", .renamed ⟨some "-moz-outline-radius-topright", none, none, none⟩),
  ("padding-after", .renamed ⟨none, some "-webkit-padding-after", none, none⟩),
  ("padding-before", .renamed ⟨none, some "-webkit-padding-before", none, none⟩),
  ("padding-end", .renamed ⟨some "-moz-padding-end", some "-webkit-padding-end", none, none⟩),
  ("padding-start", .renamed ⟨some "-moz-padding-start", some "-webkit-padding-start", none, none⟩),
  ("perspective", .renamed ⟨none, some "-webkit-perspective", none, none⟩),
  ("perspective-origin", .renamed ⟨none, some "-webkit-perspective-origin", none, none⟩),
  ("perspective-origin-x", .renamed ⟨none, some "-webkit-perspective-origin-x", none, none⟩),
  ("perspective-origin-y", .renamed ⟨none, some "-webkit-perspective-origin-y", none, none⟩),
  ("rtl-ordering", .renamed ⟨none, some "-webkit-rtl-ordering", none, none⟩),
  ("scrollbar-3dlight-color", .renamed ⟨none, none, none, some "-ms-scrollbar-3dlight-color"⟩),
  ("scrollbar-arrow-color", .renamed ⟨none, none, none, some "-ms-scrollbar-arrow-color"⟩),
  ("scrollbar-base-color", .renamed ⟨none, none, none, some "-ms-scrollbar-base-color"⟩),
  ("scrollbar-darkshadow-color",
    .renamed ⟨none, none, none, some "-ms-scrollbar-darkshadow-color"⟩),
  ("scrollbar-face-color", .renamed ⟨none, none, none, some "-ms-scrollbar-face-color"⟩),
  ("scrollbar-highlight-color", .renamed ⟨none, none, none, some "-ms-scrollbar-highlight-color"⟩),
  ("scrollbar-shadow-color", .renamed ⟨none, none, none, some "-ms-scrollbar-shadow-color"⟩),
  ("scrollbar-track-color", .renamed ⟨none, none, none, some "-ms-scrollbar-track-color"⟩),
  ("stack-sizing", .renamed ⟨some "-moz-stack-sizing", none, none, none⟩),
  ("svg-shadow", .renamed ⟨none, some "-webkit-svg-shadow", none, none⟩),
  ("tab-size", .renamed ⟨some "-moz-tab-size", none, some "-o-tab-size", none⟩),
  ("table-baseline", .renamed ⟨none, none, some "-o-table-baseline", none⟩),
  ("text-align-last", .renamed ⟨none, none, none, some "-ms-text-align-last"⟩),
  ("text-autospace", .renamed ⟨none, none, none, some "-ms-text-autospace"⟩),
  ("text-combine", .renamed ⟨none, some "-webkit-text-combine", none, none⟩),
  ("text-decorations-in-effect",
    .renamed ⟨none, some "-webkit-text-decorations-in-effect", none, none⟩),
  ("text-emphasis", .renamed ⟨none, some "-webkit-text-emphasis", none, none⟩),
  ("text-emphasis-color", .renamed ⟨none, some "-webkit-text-emphasis-color", none, none⟩),
  ("text-emphasis-position", .renamed ⟨none, some "-webkit-text-emphasis-position", none, none⟩),
  ("text-emphasis-style", .renamed ⟨none, some "-webkit-text-emphasis-style", none, none⟩),
  ("text-fill-color", .renamed ⟨none, some "-webkit-text-fill-color", none, none⟩),
  ("text-justify", .renamed ⟨none, none, none, some "-ms-text-justify"⟩),
  ("text-kashida-space", .renamed ⟨none, none, none, some "-ms-text-kashida-space"⟩),
  ("text-overflow", .renamed ⟨none, none, some "-o-text-overflow", some "-ms-text-overflow"⟩),
  ("text-security", .renamed ⟨none, some "-webkit-text-security", none, none⟩),
  ("text-size-adjust",
    .renamed ⟨none, some "-webkit-text-size-adjust", none, some "-ms-text-size-adjust"⟩),
  ("text-stroke", .renamed ⟨none, some "-webkit-text-stroke", none, none⟩),
  ("text-stroke-color", .renamed ⟨none, some "-webkit-text-stroke-color", none, none⟩),
  ("text-stroke-width", .renamed ⟨none, some "-webkit-text-stroke-width", none, none⟩),
  ("text-underline-position", .renamed ⟨none, none, none, some "-ms-text-underline-position"⟩),
  ("transform",
    .renamed ⟨some "-moz-transform", some "-webkit-transform",
      some "-o-transform", some "-ms-transform"⟩),
  ("transform-origin",
    .renamed ⟨some "-moz-transform-origin", some "-webkit-transform-origin",
      some "-o-transform-origin", none⟩),
  ("transform-origin-x", .renamed ⟨none, some "-webkit-transform-origin-x", none, none⟩),
  ("transform-origin-y", .renamed ⟨none, some "-webkit-transform-origin-y", none, none⟩),
  ("transform-origin-z", .renamed ⟨none, some "-webkit-transform-origin-z", none, none⟩),
  ("transform-style", .renamed ⟨none, some "-webkit-transform-style", none, none⟩),
  ("transition",
    .renamed ⟨some "-moz-transition", some "-webkit-transition", some "-o-transition", none⟩),
  ("transition-delay",
    .renamed ⟨some "-moz-transition-delay", some "-webkit-transition-delay",
      some "-o-transition-delay", none⟩),
  ("transition-duration",
    .renamed ⟨some "-moz-transition-duration", some "-webkit-transition-duration",
      some "-o-transition-duration", none⟩),
  ("transition-property",
    .renamed ⟨some "-moz-transition-property", some "-webkit-transition-property",
      some "-o-transition-property", none⟩),
  ("transition-timing-function",
    .renamed ⟨some "-moz-transition-timing-function", some "-webkit-transition-timing-function",
      some "-o-transition-timing-function", none⟩),
  ("user-drag", .renamed ⟨none, some "-webkit-user-drag", none, none⟩),
  ("user-focus", .renamed ⟨some "-moz-user-focus", none, none, none⟩),
  ("user-input", .renamed ⟨some "-moz-user-input", none, none, none⟩),
  ("user-modify", .renamed ⟨some "-moz-user-modify", some "-webkit-user-modify", none, none⟩),
  ("user-select", .renamed ⟨some "-moz-user-select", some "-webkit-user-select", none, none⟩),
  ("white-space", .wrapKeywords),
  ("window-shadow", .renamed ⟨some "-moz-window-shadow", none, none, none⟩),
  ("word-break", .renamed ⟨none, none, none, some "-ms-word-break"⟩),
  ("word-wrap", .renamed ⟨none, none, none, some "-ms-word-wrap"⟩),
  ("writing-mode", .renamed ⟨none, some "-webkit-writing-mode", none, some "-ms-writing-mode"⟩),
  ("zoom", .renamed ⟨none, none, none, some "-ms-zoom"⟩)]

/-- The rule for a property whose name is in lower case; without a rule of its own, only the
gradients in its value are looked at. -/
def ofProperty (name : String) : VendorRule :=
  (table.lookup name).getD .gradients

end VendorRule

/-- The gradient functions with their vendor forms. -/
def gradientForms : List (String × VendorForms) :=
  ["linear-gradient", "repeating-linear-gradient", "radial-gradient",
    "repeating-radial-gradient"].map fun function =>
    (function, ⟨some ("-moz-" ++ function), some ("-webkit-" ++ function),
      some ("-o-" ++ function), none⟩)

end Sheetsmith
