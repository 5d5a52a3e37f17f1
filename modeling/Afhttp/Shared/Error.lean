/-!
# Errors

`shared/error.rs`: every failure carries a stable code, a detail text and whether
a retry may help.
-/

namespace Afhttp

inductive ErrorCode where
  | navigationTimeout | renderUnavailable | hostUnreachable | dnsResolutionFailed
  | targetUnreachable | tlsError | profileLocked | browserLaunchFailed | cdpUnavailable
  | cdpError | cdpTimeout | waitSelectorUnmatched | backendUnsupported | artifactCaptureFailed
  | artifactCaptureTimeout | artifactEmpty | artifactTiny | botWallDetected
  | securityChallengeDetected | networkNotIdle | navigationStale | observationEmpty
  | pendingXhrAtCapture | readinessTimeout | takeoverContentUnverified | networkBodyTruncated
  | cookieRejected | profileNotFound | profileDeleteLocked | profileInvalidName
  | profileRootUnavailable | invalidArgument | invalidEndpoint | ioError | internalError
  deriving DecidableEq, Repr

/-- The codes a caller may retry on, unless the failure says otherwise. -/
def ErrorCode.retryableDefault : ErrorCode → Bool
  | .navigationTimeout | .hostUnreachable | .dnsResolutionFailed | .targetUnreachable
  | .cdpTimeout | .ioError => true
  | _ => false

def ErrorCode.asStr : ErrorCode → String
  | .navigationTimeout => "navigation_timeout"
  | .renderUnavailable => "render_unavailable"
  | .hostUnreachable => "host_unreachable"
  | .dnsResolutionFailed => "dns_resolution_failed"
  | .targetUnreachable => "target_unreachable"
  | .tlsError => "tls_error"
  | .profileLocked => "profile_locked"
  | .browserLaunchFailed => "browser_launch_failed"
  | .cdpUnavailable => "cdp_unavailable"
  | .cdpError => "cdp_error"
  | .cdpTimeout => "cdp_timeout"
  | .waitSelectorUnmatched => "wait_selector_unmatched"
  | .backendUnsupported => "backend_unsupported"
  | .artifactCaptureFailed => "artifact_capture_failed"
  | .artifactCaptureTimeout => "artifact_capture_timeout"
  | .artifactEmpty => "artifact_empty"
  | .artifactTiny => "artifact_tiny"
  | .botWallDetected => "bot_wall_detected"
  | .securityChallengeDetected => "security_challenge_detected"
  | .networkNotIdle => "network_not_idle"
  | .navigationStale => "navigation_stale"
  | .observationEmpty => "observation_empty"
  | .pendingXhrAtCapture => "pending_xhr_at_capture"
  | .readinessTimeout => "readiness_timeout"
  | .takeoverContentUnverified => "takeover_content_unverified"
  | .networkBodyTruncated => "network_body_truncated"
  | .cookieRejected => "cookie_rejected"
  | .profileNotFound => "profile_not_found"
  | .profileDeleteLocked => "profile_delete_locked"
  | .profileInvalidName => "profile_invalid_name"
  | .profileRootUnavailable => "profile_root_unavailable"
  | .invalidArgument => "invalid_argument"
  | .invalidEndpoint => "invalid_endpoint"
  | .ioError => "io_error"
  | .internalError => "internal_error"

structure Error where
  errorCode : ErrorCode
  detail : String
  retryable : Bool
  deriving DecidableEq, Repr

def Error.new (errorCode : ErrorCode) (detail : String) : Error :=
  ⟨errorCode, detail, errorCode.retryableDefault⟩

def Error.withRetryable (e : Error) (retryable : Bool) : Error := { e with retryable := retryable }

end Afhttp
