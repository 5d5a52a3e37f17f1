import Afhttp.Lib.Run
import Afhttp.Lib.Overlay
import Afhttp.Shared.Text
import Afhttp.Shared.Error
import Afhttp.Shared.Url
import Afhttp.Profile.CookieJar
import Afhttp.Profile.JarRuns
import Afhttp.Profile.JarScope
import Afhttp.Profile.JarSecure
import Afhttp.Profile.Lock
import Afhttp.Profile.LockRuns
import Afhttp.Profile.Paths
import Afhttp.Host.CdpProxy
import Afhttp.Host.CdpRuns
import Afhttp.Shared.Json
import Afhttp.Lib.RefCount
import Afhttp.Host.TargetLedger
import Afhttp.Host.TargetRuns
import Afhttp.Host.Reaper
import Afhttp.Host.ReaperRuns
import Afhttp.Host.Grace
import Afhttp.Host.GraceRuns
import Afhttp.Host.Takeover
import Afhttp.Host.TakeoverRuns
import Afhttp.Fetch.Redirects
import Afhttp.Shared.Path
import Afhttp.Fetch.CookieJarResolve
import Afhttp.Fetch.ProfilePaths
import Afhttp.Fetch.FromBuilder
import Afhttp.Fetch.HopCookies
import Afhttp.Fetch.BrowserCookies
import Afhttp.Fetch.BrowserRoundTrip
import Afhttp.Fetch.BrowserLogout
import Afhttp.Fetch.Sendable
import Afhttp.Fetch.Download
import Afhttp.Fetch.DownloadDir
import Afhttp.Fetch.DownloadRuns
import Afhttp.Fetch.DownloadNames
import Afhttp.Shared.Maps
import Afhttp.Fetch.Navigate
import Afhttp.Fetch.Intercept
import Afhttp.Fetch.BrowserPath
import Afhttp.Cdp.Connection
import Afhttp.Cdp.ConnectionRuns
import Afhttp.Cdp.Command
import Afhttp.Collect.Network
import Afhttp.Collect.RequestTable
import Afhttp.Collect.MainDocument
import Afhttp.Collect.NetworkBound
import Afhttp.Collect.RedirectChain
import Afhttp.Collect.MainReserve
import Afhttp.Collect.TerminalStates
import Afhttp.Collect.MainWait
import Afhttp.Collect.MainWaitRuns
import Afhttp.Lib.Window
import Afhttp.Fetch.Readiness
import Afhttp.Fetch.WaitReadiness
import Afhttp.Fetch.ReadinessVerdict
import Afhttp.Fetch.ReadinessRuns
import Afhttp.Fetch.StabilityTime
import Afhttp.Fetch.IterationOrder
import Afhttp.Shared.Redact
import Afhttp.Shared.IpAddr
import Afhttp.Host.Headers
import Afhttp.Host.Loopback
import Afhttp.Shared.Form
import Afhttp.Host.TakeoverQuery
import Afhttp.Host.Landing
import Afhttp.Host.Middleware
import Afhttp.Fetch.Submit
import Afhttp.Collect.Streams
import Afhttp.Collect.BodyFiles
import Afhttp.Host.LastWindow
import Afhttp.Profile.Probe
import Afhttp.Profile.ProbeRuns
import Afhttp.Profile.Prune
import Afhttp.Profile.PruneRuns
import Afhttp.Host.RecentRequests
import Afhttp.Host.RingRuns
import Afhttp.Fetch.BodyCap
import Afhttp.Shared.JsonPath
import Afhttp.Shared.RedactUrls
import Afhttp.Collect.StreamRuns
import Afhttp.Host.SubscribeLoop
import Afhttp.Lib.AtomicFile
import Afhttp.Lib.Base64
import Afhttp.Lib.Broadcast
import Afhttp.Lib.JsLiteral
import Afhttp.Lib.FormUrlencoded
import Afhttp.Fetch.FormBody
import Afhttp.Lib.Script
import Afhttp.Lib.SharedCell
import Afhttp.Lib.ShellWords
import Afhttp.Fetch.ShellCommand
import Afhttp.Fetch.VisibleText
import Afhttp.Fetch.Content
import Afhttp.Fetch.ContentHidden
import Afhttp.Fetch.ContentRuns
import Afhttp.Fetch.ContentParts
import Afhttp.Fetch.Writer
import Afhttp.Host.Preseed
import Afhttp.Sdk.Client
import Afhttp.Sdk.ClientRuns
import Afhttp.Fetch.DeadlineStages
import Afhttp.Fetch.DeadlineRuns
import Afhttp.Sdk.ClientCalls
import Afhttp.Sdk.ClientProgress
